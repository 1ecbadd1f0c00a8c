import Lotto.StatemgrFormat

namespace Lotto.ChainOrder

open Library.ByteCodec Library.FaultRun StatemgrFormat

variable {V Id : Type}

/-- A struct registered with the state manager: its functions, the contents it can hold and the
bytes each content is written as. -/
structure Registrant (V : Type) where
  m : Marshable V
  holds : V → Prop
  layout : V → Layout
  sized : m.size.isSome = true
  writes : ∀ v, holds v → Matches (layout v) (m.marshal v)
  reads : ∀ current v, holds current → holds v → ∀ buf rest,
    m.unmarshal current buf = some (v, rest) ↔
      ∃ bytes, Matches (layout v) bytes ∧ buf = bytes ++ rest
  /-- Two contents first differ in a byte that is read back. -/
  tells : ∀ v w, holds v → holds w → v ≠ w → ∃ n b c, b ≠ c ∧
    (m.marshal v).take n = (m.marshal w).take n ∧
    (layout v)[n]? = some (some b) ∧ (layout w)[n]? = some (some c)

def nodes (s : Id → Registrant V) (value : Id → V) (ids : List Id) : List (Node V) :=
  ids.map fun i => ⟨(s i).m, value i⟩

def registerOn (slot : Fin maxSlots) (chain : List (Node V)) : StateGroup V :=
  registerAll (chain.map fun node => (slot, node))

theorem registerOn_nil (slot : Fin maxSlots) : registerOn (V := V) slot [] = [] := rfl

theorem registerOn_cons (slot : Fin maxSlots) (node : Node V) (chain : List (Node V)) :
    registerOn slot (node :: chain) = [{ chain := node :: chain, slot }] := by
  have general : ∀ (bound chain : List (Node V)),
      (chain.map fun node => (slot, node)).foldl
        (fun mgr reg => statemgrRegister reg.1 reg.2 mgr) [{ chain := bound, slot }] =
          [{ chain := bound ++ chain, slot }] := by
    intro bound chain
    induction chain generalizing bound with
    | nil => simp
    | cons node chain ih =>
        rw [List.map_cons, List.foldl_cons]
        simp only [statemgrRegister, if_true]
        rw [ih]
        simp
  simpa [registerOn, registerAll, statemgrRegister] using general [node] chain

/-- What the writer puts behind the header: the contents in its registration order. -/
def payload (s : Id → Registrant V) (value : Id → V) (ids : List Id) : List UInt8 :=
  ids.flatMap fun i => (s i).m.marshal (value i)

/-- The contents in registration order as the reader's chain expects them. -/
def expected (s : Id → Registrant V) (value : Id → V) (ids : List Id) : Layout :=
  ids.flatMap fun i => (s i).layout (value i)

def Holding (s : Id → Registrant V) (ids : List Id) (value : Id → V) : Prop :=
  ∀ i ∈ ids, (s i).holds (value i)

theorem Holding.tail {s : Id → Registrant V} {i : Id} {ids : List Id} {value : Id → V}
    (holding : Holding s (i :: ids) value) : Holding s ids value :=
  fun j member => holding j (List.mem_cons_of_mem _ member)

theorem Holding.perm {s : Id → Registrant V} {ws rs : List Id} {value : Id → V}
    (holding : Holding s ws value) (same : rs.Perm ws) : Holding s rs value :=
  fun i member => holding i (same.mem_iff.mp member)

theorem marshal_nodes (s : Id → Registrant V) (value : Id → V) (ids : List Id) :
    marshableMarshal (nodes s value ids) = payload s value ids := by
  simp [marshableMarshal, nodes, payload, List.flatMap_map]

theorem expected_matches {s : Id → Registrant V} {ids : List Id} {value : Id → V}
    (holding : Holding s ids value) : Matches (expected s value ids) (payload s value ids) := by
  induction ids with
  | nil => exact List.Forall₂.nil
  | cons i ids ih =>
      exact ((s i).writes (value i) (holding i List.mem_cons_self)).append (ih holding.tail)

/-- The chain of a reader finds its contents exactly in the bytes that match them in its order. -/
theorem unmarshal_restores_iff {s : Id → Registrant V} {ids : List Id} {value current : Id → V}
    (old : Holding s ids current) (holding : Holding s ids value) (buf rest : List UInt8) :
    marshableUnmarshal (nodes s current ids) buf = .ok (nodes s value ids, rest) ↔
      ∃ bytes, Matches (expected s value ids) bytes ∧ buf = bytes ++ rest := by
  induction ids generalizing buf with
  | nil =>
      simp only [nodes, List.map_nil, marshableUnmarshal, expected, List.flatMap_nil, Matches,
        List.forall₂_nil_left_iff, Except.ok.injEq, Prod.mk.injEq, true_and, exists_eq_left,
        List.nil_append]
  | cons i ids ih =>
      have reads := (s i).reads (current i) (value i) (old i List.mem_cons_self)
        (holding i List.mem_cons_self)
      have next := ih old.tail holding.tail
      simp only [nodes, List.map_cons] at next ⊢
      constructor
      · intro run
        rw [marshableUnmarshal] at run
        cases first : (s i).m.unmarshal (current i) buf with
        | none => simp [first] at run
        | some result =>
            obtain ⟨v, behind⟩ := result
            simp only [first] at run
            obtain ⟨⟨chain, left⟩, tail, done⟩ := bind_eq_ok.mp run
            obtain ⟨⟨rfl, rfl⟩, rfl⟩ : ((v = value i ∧ chain = ids.map fun i =>
                (⟨(s i).m, value i⟩ : Node V)) ∧ left = rest) := by
              simpa [Except.ok.injEq] using done
            obtain ⟨x, seen, rfl⟩ := (reads buf behind).mp first
            obtain ⟨y, later, rfl⟩ := (next behind).mp tail
            exact ⟨x ++ y, seen.append later, by rw [List.append_assoc]⟩
      · rintro ⟨bytes, seen, rfl⟩
        obtain ⟨x, y, rfl, first, later⟩ := seen.split
        have head := (reads (x ++ (y ++ rest)) (y ++ rest)).mpr ⟨x, first, rfl⟩
        have tail := (next (y ++ rest)).mpr ⟨y, later, rfl⟩
        simp only [marshableUnmarshal, List.append_assoc, head, tail, ok_bind]

theorem marshal_registerOn {s : Id → Registrant V} {i : Id} {ids : List Id} {value : Id → V}
    (slot : Fin maxSlots) :
    statemgrMarshal (registerOn slot (nodes s value (i :: ids))) =
      headerMarshal { index := 0, size := (payload s value (i :: ids)).length, empty := false,
                      slot := slot } ++ payload s value (i :: ids) := by
  have chain := marshal_nodes s value (i :: ids)
  simp only [nodes, List.map_cons] at chain ⊢
  rw [registerOn_cons, statemgrMarshal]
  simp only [statemgrMarshalFrom, isMarshaled, (s i).sized, if_true, chain, List.append_nil]

/-- The reader holds, in each of its structs, the content that the same struct had in the writer
when `ws` and `rs` are the registration orders of the two. -/
def Restored (slot : Fin maxSlots) (s : Id → Registrant V) (ws rs : List Id)
    (value current : Id → V) (tail : List UInt8) : Prop :=
  ∃ d, statemgrUnmarshal (registerOn slot (nodes s current rs))
      (statemgrMarshal (registerOn slot (nodes s value ws)) ++ tail) = .ok d ∧
    d.mgr = registerOn slot (nodes s value rs)

theorem restored_iff {slot : Fin maxSlots} {s : Id → Registrant V} {ws rs : List Id}
    (same : rs.Perm ws) {value current : Id → V} (holding : Holding s ws value)
    (old : Holding s ws current) (bounded : (payload s value ws).length < 2 ^ 64)
    (tail : List UInt8) :
    Restored slot s ws rs value current tail ↔
      Matches (expected s value rs) (payload s value ws) := by
  cases rs with
  | nil =>
      obtain rfl : ws = [] := List.nil_perm.mp same
      simp [Restored, nodes, registerOn_nil, statemgrUnmarshal, decodeLoop, expected, payload, Matches]
  | cons r rs =>
      cases ws with
      | nil => exact absurd same.length_eq (by simp)
      | cons w ws =>
          have chain : ∀ v : Id → V, registerOn slot (nodes s v (r :: rs)) =
              [{ chain := nodes s v (r :: rs), slot }] := fun v => registerOn_cons slot _ _
          have restores := unmarshal_restores_iff (old.perm same) (holding.perm same)
            (payload s value (w :: ws) ++ tail)
          rw [Restored, marshal_registerOn, List.append_assoc, chain current, chain value,
            unmarshal_single (by simp [nodes]) rfl bounded rfl]
          constructor
          · rintro ⟨d, run, equal⟩
            obtain ⟨⟨restored, next⟩, first, run⟩ := bind_eq_ok.mp run
            obtain ⟨_, size, run⟩ := bind_eq_ok.mp run
            obtain rfl : _ = d := Except.ok.inj run
            obtain rfl : restored = nodes s value (r :: rs) := by simpa using equal
            obtain ⟨bytes, seen, parts⟩ := (restores next).mp first
            -- the size check makes the reader stop where the payload ends
            have total : bytes.length = (payload s value (w :: ws)).length := by
              have lengths := congrArg List.length parts
              have used := beq_iff_eq.mp ((check_ok_iff _ _).mp size)
              simp only [List.length_append] at lengths used
              omega
            obtain ⟨rfl, _⟩ := List.append_inj parts total.symm
            exact seen
          · intro seen
            have found := (restores tail).mpr ⟨_, seen, rfl⟩
            simp only [found, ok_bind, List.length_append, Nat.add_sub_cancel, beq_self_eq_true,
              check_true, Except.ok.injEq]
            exact ⟨_, rfl, rfl⟩

theorem common_part {ws rs : List Id} (same : rs.Perm ws) (other : rs ≠ ws) :
    ∃ front a b ws' rs', ws = front ++ a :: ws' ∧ rs = front ++ b :: rs' ∧ a ≠ b := by
  induction ws generalizing rs with
  | nil => exact absurd (List.perm_nil.mp same) other
  | cons w ws ih =>
      cases rs with
      | nil => exact absurd same.length_eq (by simp)
      | cons r rs =>
          by_cases equal : w = r
          · subst equal
            obtain ⟨front, a, b, ws', rs', rfl, rfl, apart⟩ :=
              ih (List.perm_cons w |>.mp same) (fun same => other (by rw [same]))
            exact ⟨w :: front, a, b, ws', rs', rfl, rfl, apart⟩
          · exact ⟨[], w, r, ws, rs, rfl, rfl, equal⟩

section Exchange

variable {s : Id → Registrant V} {value : Id → V} {b : Id}

theorem payload_update [DecidableEq Id] {v : V} {ids : List Id} (absent : b ∉ ids) :
    payload s (Function.update value b v) ids = payload s value ids := by
  refine List.flatMap_congr fun i member => ?_
  have apart : i ≠ b := fun same => absent (same ▸ member)
  rw [Function.update_of_ne apart]

theorem first_read {front rest later : List Id} (holding : Holding s front value)
    (seen : Matches (expected s value (front ++ b :: later)) (payload s value (front ++ rest)))
    {n : Nat} {byte : UInt8} (read : ((s b).layout (value b))[n]? = some (some byte)) :
    (payload s value rest)[n]? = some byte := by
  have parts : Matches (expected s value front ++
      ((s b).layout (value b) ++ expected s value later)) (payload s value (front ++ rest)) := by
    simpa [expected] using seen
  obtain ⟨x, y, split, first, second⟩ := parts.split
  have length : x.length = (payload s value front).length := by
    rw [← first.length_eq, (expected_matches holding).length_eq]
  have joined : payload s value front ++ payload s value rest = x ++ y := by
    simpa [payload] using split
  obtain ⟨rfl, rfl⟩ := List.append_inj joined length.symm
  refine second.byte ?_
  have inside : n < ((s b).layout (value b)).length := (List.getElem?_eq_some_iff.mp read).1
  rw [List.getElem?_append_left inside, read]

theorem take_shifted {front x y : List UInt8} (rest : List UInt8) {n : Nat} (shift : front ≠ [])
    (same : x.take n = y.take n) (left : n ≤ x.length) (right : n ≤ y.length) :
    (front ++ (x ++ rest)).take (n + 1) = (front ++ (y ++ rest)).take (n + 1) := by
  have positive : 0 < front.length := List.length_pos_iff.mpr shift
  have short : n + 1 - front.length ≤ n := by omega
  have cut : x.take (n + 1 - front.length) = y.take (n + 1 - front.length) := by
    have both := congrArg (List.take (n + 1 - front.length)) same
    simpa [List.take_take, Nat.min_eq_left short] using both
  have inX : n + 1 - front.length ≤ x.length := Nat.le_trans short left
  have inY : n + 1 - front.length ≤ y.length := Nat.le_trans short right
  have split : ∀ l : List UInt8, (front ++ l).take (n + 1) =
      front.take (n + 1) ++ l.take (n + 1 - front.length) := fun l => List.take_append
  rw [split, split, List.take_append_of_le_length inX, List.take_append_of_le_length inY, cut]

theorem marshal_nonempty {i : Id} {v w : V} (first : (s i).holds v) (second : (s i).holds w)
    (apart : v ≠ w) : (s i).m.marshal v ≠ [] := by
  obtain ⟨n, _, _, _, _, read, _⟩ := (s i).tells v w first second apart
  intro empty
  have length := ((s i).writes v first).length_eq
  rw [empty, List.length_nil] at length
  rw [List.eq_nil_of_length_eq_zero length] at read
  simp at read

/-- Two orders cannot both be read: the first struct on which they disagree is looked for too
early, whatever bytes stand there. -/
theorem not_all_matched [DecidableEq Id] {front ws : List Id} (rs : List Id) {a : Id}
    (holding : Holding s (front ++ a :: ws) value) (distinct : (front ++ a :: ws).Nodup)
    (written : (s a).m.marshal (value a) ≠ []) (inside : b ∈ ws)
    {v w : V} (first : (s b).holds v) (second : (s b).holds w) (apart : v ≠ w)
    (matched : ∀ content, (s b).holds content →
      Matches (expected s (Function.update value b content) (front ++ b :: rs))
        (payload s (Function.update value b content) (front ++ a :: ws))) : False := by
  obtain ⟨before, behind, rfl⟩ := List.append_of_mem inside
  have away : b ∉ front ∧ b ≠ a ∧ b ∉ before ∧ b ∉ behind := by
    have moved : (b :: (front ++ a :: (before ++ behind))).Nodup := by
      refine (List.Perm.nodup_iff ?_).mp distinct
      have middle : ((front ++ a :: before) ++ b :: behind).Perm
          (b :: ((front ++ a :: before) ++ behind)) := List.perm_middle
      simpa [List.append_assoc] using middle
    simpa using (List.nodup_cons.mp moved).1
  obtain ⟨n, x, y, differ, same, readX, readY⟩ := (s b).tells v w first second apart
  have unchanged : ∀ content, Holding s front (Function.update value b content) := by
    intro content i member
    have other : i ≠ b := fun equal => away.1 (equal ▸ member)
    rw [Function.update_of_ne other]
    exact holding i (List.mem_append_left _ member)
  have layout : ∀ content, payload s (Function.update value b content) (a :: (before ++ b :: behind)) =
      payload s value (a :: before) ++ ((s b).m.marshal content ++ payload s value behind) := by
    intro content
    have outside : b ∉ a :: before := by simp [away.2.1, away.2.2.1]
    have left : payload s (Function.update value b content) (a :: before) =
        payload s value (a :: before) := payload_update outside
    have right : payload s (Function.update value b content) behind = payload s value behind :=
      payload_update away.2.2.2
    calc
      _ = payload s (Function.update value b content) (a :: before) ++
          ((s b).m.marshal content ++ payload s (Function.update value b content) behind) := by
        simp [payload]
      _ = _ := by rw [left, right]
  have foundX := first_read (unchanged v) (matched v first) (by simpa using readX)
  have foundY := first_read (unchanged w) (matched w second) (by simpa using readY)
  have longX : n < ((s b).m.marshal v).length := by
    rw [← ((s b).writes v first).length_eq]
    exact (List.getElem?_eq_some_iff.mp readX).1
  have longY : n < ((s b).m.marshal w).length := by
    rw [← ((s b).writes w second).length_eq]
    exact (List.getElem?_eq_some_iff.mp readY).1
  have shift : payload s value (a :: before) ≠ [] := by
    simp [payload, written]
  have hidden := take_shifted (payload s value behind) shift same (Nat.le_of_lt longX)
    (Nat.le_of_lt longY)
  rw [← layout v, ← layout w] at hidden
  have equal := congrArg (fun bytes : List UInt8 => bytes[n]?) hidden
  simp only [List.getElem?_take, Nat.lt_succ_self, if_true, foundX, foundY] at equal
  exact differ (Option.some.inj equal)

end Exchange

def Stateful (r : Registrant V) : Prop := ∃ v w, r.holds v ∧ r.holds w ∧ v ≠ w

theorem matched_iff_same_order {s : Id → Registrant V} {ws rs : List Id} (same : rs.Perm ws)
    (distinct : ws.Nodup) (stateful : ∀ i ∈ ws, Stateful (s i)) :
    (∀ value, Holding s ws value → Matches (expected s value rs) (payload s value ws)) ↔
      rs = ws := by
  classical
  constructor
  · intro all
    by_contra other
    obtain ⟨front, a, b, ws', rs', rfl, rfl, apart⟩ := common_part same other
    have choose : ∀ i, ∃ v, i ∈ front ++ a :: ws' → (s i).holds v ∧ (s i).m.marshal v ≠ [] := by
      intro i
      by_cases member : i ∈ front ++ a :: ws'
      · obtain ⟨v, w, first, second, differ⟩ := stateful i member
        exact ⟨v, fun _ => ⟨first, marshal_nonempty first second differ⟩⟩
      · obtain ⟨v, _⟩ := stateful a (by simp)
        exact ⟨v, fun inside => absurd inside member⟩
    obtain ⟨value, good⟩ := Classical.axiomOfChoice choose
    have holding : Holding s (front ++ a :: ws') value := fun i member => (good i member).1
    have inside : b ∈ ws' := by
      have member : b ∈ front ++ a :: ws' := same.mem_iff.mp (by simp)
      have outside : b ∉ front := by
        have separate := (List.nodup_append.mp (same.nodup_iff.mpr distinct)).2.2
        exact fun inFront => separate b inFront b List.mem_cons_self rfl
      simpa [outside, Ne.symm apart] using member
    obtain ⟨v, w, first, second, differ⟩ := stateful b (same.mem_iff.mp (by simp))
    refine not_all_matched rs' holding distinct (good a (by simp)).2 inside first second differ ?_
    intro content held
    refine all _ fun i member => ?_
    by_cases equal : i = b
    · subst equal
      simpa using held
    · rw [Function.update_of_ne equal]
      exact holding i member
  · rintro rfl value holding
    exact expected_matches holding

/-- The content of a same-slot chain survives exactly in the orders whose bytes agree, and for
structs with a content worth restoring that is the writer's registration order alone. -/
theorem restored_iff_registration_order (slot : Fin maxSlots) (s : Id → Registrant V)
    (ws rs : List Id) (same : rs.Perm ws) (distinct : ws.Nodup)
    (bounded : ∀ value, Holding s ws value → (payload s value ws).length < 2 ^ 64) :
    (∀ value current tail, Holding s ws value → Holding s ws current →
      (Restored slot s ws rs value current tail ↔
        Matches (expected s value rs) (payload s value ws))) ∧
    ((∀ i ∈ ws, Stateful (s i)) →
      ((∀ value current tail, Holding s ws value → Holding s ws current →
        Restored slot s ws rs value current tail) ↔ rs = ws)) := by
  have single : ∀ value current tail, Holding s ws value → Holding s ws current →
      (Restored slot s ws rs value current tail ↔
        Matches (expected s value rs) (payload s value ws)) :=
    fun value _ tail holding old => restored_iff same holding old (bounded value holding) tail
  refine ⟨single, fun stateful => ?_⟩
  rw [← matched_iff_same_order same distinct stateful]
  constructor
  · intro all value holding
    exact (single value value [] holding holding).mp (all value value [] holding holding)
  · intro all value current tail holding old
    exact (single value current tail holding old).mpr (all value holding)

theorem matches_skipped (bytes : List UInt8) :
    Matches (List.replicate bytes.length none) bytes := by
  induction bytes with
  | nil => exact List.Forall₂.nil
  | cons byte bytes ih => exact List.Forall₂.cons (Or.inl rfl) ih

theorem matches_read {content bytes : List UInt8} : Matches (content.map some) bytes ↔ bytes = content := by
  induction content generalizing bytes with
  | nil => simp [Matches]
  | cons byte content ih =>
      cases bytes with
      | nil => simp [Matches]
      | cons other bytes =>
          have tail : Matches (content.map some) bytes ↔ bytes = content := ih
          simp only [Matches] at tail
          simp [Matches, tail, eq_comm]

theorem first_difference {v w : List UInt8} (length : v.length = w.length) (differ : v ≠ w) :
    ∃ n b c, b ≠ c ∧ v.take n = w.take n ∧ v[n]? = some b ∧ w[n]? = some c := by
  induction v generalizing w with
  | nil => exact absurd (List.eq_nil_of_length_eq_zero length.symm).symm differ
  | cons b v ih =>
      cases w with
      | nil => simp at length
      | cons c w =>
          by_cases equal : b = c
          · subst equal
            obtain ⟨n, x, y, apart, same, first, second⟩ :=
              ih (by simpa using length) (fun equal => differ (by rw [equal]))
            exact ⟨n + 1, x, y, apart, by simp [same], by simpa using first, by simpa using second⟩
          · exact ⟨0, b, c, equal, rfl, rfl, rfl⟩

def staticRegistrant (stamp : List UInt8) (n : Nat) : Registrant (List UInt8) where
  m := marshableStatic stamp n
  holds := fun content => content.length = n
  layout := fun content => List.replicate stamp.length none ++ content.map some
  sized := rfl
  writes := fun content _ => (matches_skipped stamp).append (matches_read.mpr rfl)
  reads := by
    intro current content _ held buf rest
    constructor
    · intro read
      simp only [marshableStatic] at read
      split at read
      case isTrue enough =>
        obtain ⟨rfl, rfl⟩ := Prod.mk.inj (Option.some.inj read)
        have skipped := matches_skipped (buf.take stamp.length)
        rw [List.length_take, Nat.min_eq_left (by omega)] at skipped
        refine ⟨_, skipped.append (matches_read.mpr rfl), ?_⟩
        rw [List.append_assoc, ← List.drop_drop, List.take_append_drop, List.take_append_drop]
      case isFalse => cases read
    · rintro ⟨bytes, seen, rfl⟩
      obtain ⟨skipped, y, rfl, front, second⟩ := seen.split
      obtain rfl := matches_read.mp second
      have length : skipped.length = stamp.length := by simpa using front.length_eq.symm
      simp [marshableStatic, ← length, ← held, List.drop_append]
  tells := by
    intro v w first second differ
    obtain ⟨n, b, c, apart, same, readV, readW⟩ := first_difference (first.trans second.symm) differ
    refine ⟨stamp.length + n, b, c, apart, ?_, ?_, ?_⟩
    · simp only [marshableStatic]
      rw [List.take_length_add_append, List.take_length_add_append, same]
    · rw [List.getElem?_append_right (by simp)]
      simp [readV]
    · rw [List.getElem?_append_right (by simp)]
      simp [readW]

def sampleStructs (_ : UInt8) : Registrant (List UInt8) :=
  staticRegistrant (List.replicate 48 0) 1

theorem sampleStructs_stateful (i : UInt8) : Stateful (sampleStructs i) :=
  ⟨[0], [1], rfl, rfl, by decide⟩

def contents (d : Decoder (List UInt8)) : List (List (List UInt8)) :=
  d.mgr.map fun entry => entry.chain.map Node.value

/-- Structs 7 and 9 of equal size, registered as 9, 7 by the reader: each gets the other's
content and no check fails. -/
theorem reordered_chain_swaps :
    (statemgrUnmarshal (registerOn ⟨3, by decide⟩ (nodes sampleStructs (fun _ => [0]) [9, 7]))
      (statemgrMarshal (registerOn ⟨3, by decide⟩ (nodes sampleStructs (fun i => [i]) [7, 9])))).map
        contents = .ok [[[7], [9]]] ∧
    ¬ Restored ⟨3, by decide⟩ sampleStructs [7, 9] [9, 7] (fun i => [i]) (fun _ => [0]) [] := by
  have swapped : (statemgrUnmarshal
      (registerOn ⟨3, by decide⟩ (nodes sampleStructs (fun _ => [0]) [9, 7]))
      (statemgrMarshal (registerOn ⟨3, by decide⟩ (nodes sampleStructs (fun i => [i]) [7, 9])))).map
        contents = .ok [[[7], [9]]] := rfl
  refine ⟨swapped, ?_⟩
  rintro ⟨d, run, restored⟩
  rw [List.append_nil] at run
  rw [run] at swapped
  have wrong : contents d = [[[7], [9]]] := Except.ok.inj swapped
  rw [contents, restored] at wrong
  exact absurd wrong (by decide)

theorem restored_in_registration_order :
    Restored ⟨3, by decide⟩ sampleStructs [7, 9] [7, 9] (fun i => [i]) (fun _ => [0]) [1, 2] := by
  have both := restored_iff_registration_order ⟨3, by decide⟩ sampleStructs [7, 9] [7, 9]
    (List.Perm.refl _) (by decide) (by
      intro value holding
      have seven : (value 7).length = 1 := holding 7 (by decide)
      have nine : (value 9).length = 1 := holding 9 (by decide)
      simp [payload, sampleStructs, staticRegistrant, marshableStatic, seven, nine])
  exact (both.2 fun i _ => sampleStructs_stateful i).mpr rfl _ _ _ (fun _ _ => rfl) (fun _ _ => rfl)

end Lotto.ChainOrder
