import Lotto.MarshalSpecs

namespace Lotto.MarshalLaw

open Library.FaultRun Library.Ownership Marshal MarshalSpecs

def blocks : Object → Multiset UInt64
  | .static _ => 0
  | .tidset t => blockAt t.tasks
  | .tidbag t => blockAt t.tasks
  | .map t => addresses t.items
  | .vec t => blockAt t.items

def chainBlocks : List Object → Multiset UInt64
  | [] => 0
  | o :: next => blocks o + chainBlocks next

/-- The blocks that an object uses or frees while it is unmarshalled. A tidbag forgets its own. -/
def pending : Object → Multiset UInt64
  | .tidbag _ => 0
  | o => blocks o

def chainPending : List Object → Multiset UInt64
  | [] => 0
  | o :: next => pending o + chainPending next

theorem chainPending_le (chain : List Object) : chainPending chain ≤ chainBlocks chain := by
  induction chain with
  | nil => exact le_rfl
  | cons o next ih =>
      have own : pending o ≤ blocks o := by
        cases o with
        | tidbag t => exact Multiset.zero_le _
        | _ => exact le_rfl
      exact add_le_add own ih

def freed : Object → List UInt64
  | .tidbag t => if t.tasks = 0 then [] else [t.tasks]
  | _ => []

def chainFreed (chain : List Object) : List UInt64 := chain.flatMap freed

/-- `marshal` writes as many bytes as `size` tells, and `unmarshal` consumes them and restores the
content, in blocks that are live and that no two objects share. -/
def Law (a : Allocator) (source target : List Object) (rest : List UInt8) (h : Memory) : Prop :=
  (marshableMarshal source).length = marshableSize source ∧
    ∃ target' h', marshableUnmarshal a target (marshableMarshal source ++ rest) h =
        .ok (target', rest, h') ∧
      List.Forall₂ Object.Restores source target' ∧ Sound ⟨h'.live, chainBlocks target'⟩

/-- The tidbags of the source have different blocks, which are still live where the bytes are read,
and which the target does not use. -/
def Harmless (source target : List Object) (h : Memory) : Prop :=
  Apart ⟨h.live, chainPending target⟩ (chainFreed source)

section Objects

variable {a : Allocator} {s t : Object} {rest : List UInt8} {h : Memory}

structure Unmarshals (s t : Object) (rest : List UInt8) (h : Memory)
    (run : Except Fault (Object × List UInt8 × Memory)) : Prop where
  restored : ∀ r, run = .ok r → r.2.1 = rest ∧ s.Restores r.1
  sound : ∀ r, run = .ok r → ∀ others, Sound ⟨r.2.2.live, blocks r.1 + others⟩ ↔
    Sound ⟨h.live, pending t + others⟩ ∧ Apart ⟨h.live, pending t + others⟩ (freed s)
  gone : ∀ r, run = .ok r → ∀ others b, Foreign ⟨r.2.2.live, blocks r.1 + others⟩ b ↔
    Foreign ⟨h.live, pending t + others⟩ b ∧ b ∉ freed s
  total : ∀ others, Sound ⟨h.live, pending t + others⟩ →
    Apart ⟨h.live, pending t + others⟩ (freed s) → run = .error .outOfMemory ∨ ∃ r, run = .ok r

theorem Unmarshals.of_handles {run : Except Fault (Object × List UInt8 × Memory)}
    (own : freed s = [])
    (handles : Handles .outOfMemory ⟨h.live, pending t⟩ run (fun r => ⟨r.2.2.live, blocks r.1⟩)
      fun r => r.2.1 = rest ∧ s.Restores r.1) : Unmarshals s t rest h run where
  restored := handles.post
  sound := by
    intro r done others
    rw [own, and_iff_left (apart_nil _)]
    exact sound_steps_iff (handles.steps r done others)
  gone := by
    intro r done others b
    rw [own, and_iff_left List.not_mem_nil]
    exact foreign_steps_iff (handles.steps r done others)
  total := fun others sound _ => handles.total others sound

/-- A tidbag frees the block of the bag that was marshalled, live or not, and gets a new one. -/
theorem tidbag_unmarshals {s t : TaskBlock} (valid : s.Valid) (old : t.Valid) (rest : List UInt8)
    (h : Memory) :
    Unmarshals (.tidbag s) (.tidbag t) rest h
      (Object.unmarshal a (.tidbag t) (Object.marshal (.tidbag s) ++ rest) h) := by
  have filled (h : Memory) : Handles .outOfMemory ⟨h.live, 0⟩
      (malloc a h >>= fun r => .ok (Object.tidbag (refill t s r.1), rest, r.2))
      (fun r => ⟨r.2.2.live, blocks r.1⟩)
      fun r => r.2.1 = rest ∧ (Object.tidbag s).Restores r.1 := by
    apply (malloc_handles a h).bind
    intro r real
    exact Handles.done rfl ⟨rfl, refill_restores valid old real⟩
  have runs : Object.unmarshal a (.tidbag t) (Object.marshal (.tidbag s) ++ rest) h =
      free s.tasks h >>= fun h => malloc a h >>= fun r =>
        .ok (Object.tidbag (refill t s r.1), rest, r.2) := by
    rw [Object.unmarshal, Object.marshal, tidbagUnmarshal_eq valid old]
    cases free s.tasks h with
    | error e => rfl
    | ok h =>
        simp only [ok_bind]
        cases malloc a h <;> rfl
  rw [runs]
  by_cases null : s.tasks = 0
  · have skipped : free s.tasks h = .ok h := if_pos null
    rw [skipped, ok_bind]
    exact Unmarshals.of_handles (if_pos null) (filled h)
  · have single : freed (.tidbag s) = [s.tasks] := if_neg null
    by_cases live : s.tasks ∈ h.live
    · have erased : free s.tasks h = .ok { h with live := h.live.erase s.tasks } := by
        simp [free, null, live]
      rw [erased, ok_bind]
      have handles := filled { h with live := h.live.erase s.tasks }
      refine ⟨handles.post, ?_, ?_, ?_⟩
      · intro r done others
        rw [single, apart_singleton, ← sound_steal_iff live]
        exact sound_steps_iff (handles.steps r done others)
      · intro r done others b
        rw [single, List.mem_singleton, and_comm, ← foreign_steal_iff b]
        exact foreign_steps_iff (handles.steps r done others)
      · intro others sound apart
        rw [single, apart_singleton] at apart
        exact handles.total others ((sound_steal_iff live).mpr ⟨sound, apart⟩)
    · have dead : free s.tasks h = .error .freeDead := by simp [free, null, live]
      rw [dead, error_bind]
      constructor
      case total =>
        intro others _ apart
        rw [single, apart_singleton] at apart
        exact absurd apart.1 live
      all_goals
        intro r done
        cases done

theorem unmarshal_unmarshals (valid : s.Valid) (old : t.Valid) (same : s.SameType t)
    (rest : List UInt8) (h : Memory) :
    Unmarshals s t rest h (t.unmarshal a (s.marshal ++ rest) h) := by
  cases s with
  | static s =>
      cases t with
      | static t =>
          have whole : headerSize + s.payload.length = t.m.allocSize.toNat := by
            rw [← show s.m.allocSize = t.m.allocSize from same]
            exact valid
          apply Unmarshals.of_handles rfl
          rw [Object.unmarshal, Object.marshal, staticMarshal,
            staticUnmarshal_struct whole (length_header s.m), ok_bind]
          exact Handles.done rfl ⟨rfl, rfl⟩
      | _ => exact same.elim
  | tidset s =>
      cases t with
      | tidset t =>
          apply Unmarshals.of_handles rfl
          apply (tidset_handles valid old rest h).bind
          intro r restored
          exact Handles.done rfl restored
      | _ => exact same.elim
  | tidbag s =>
      cases t with
      | tidbag t => exact tidbag_unmarshals valid old rest h
      | _ => exact same.elim
  | map s =>
      cases t with
      | map t =>
          apply Unmarshals.of_handles rfl
          apply (map_handles valid old same rest h).bind
          intro r restored
          exact Handles.done rfl restored
      | _ => exact same.elim
  | vec s =>
      cases t with
      | vec t =>
          apply Unmarshals.of_handles rfl
          apply (vec_handles valid same rest h).bind
          intro r restored
          exact Handles.done rfl restored
      | _ => exact same.elim

end Objects

section Chain

variable {a : Allocator} {source target : List Object} {h : Memory}

theorem marshableMarshal_cons (o : Object) (next : List Object) (rest : List UInt8) :
    marshableMarshal (o :: next) ++ rest = o.marshal ++ (marshableMarshal next ++ rest) := by
  rw [marshableMarshal, List.flatMap_cons, List.append_assoc]
  rfl

theorem chain_restored (valid : ∀ o ∈ source, o.Valid) (old : ∀ o ∈ target, o.Valid)
    (same : List.Forall₂ Object.SameType source target) {rest buf : List UInt8}
    {target' : List Object} {h' : Memory}
    (run : marshableUnmarshal a target (marshableMarshal source ++ rest) h = .ok (target', buf, h')) :
    buf = rest ∧ List.Forall₂ Object.Restores source target' ∧
      ∀ done, Sound ⟨h'.live, chainBlocks target' + done⟩ ↔
        Sound ⟨h.live, chainPending target + done⟩ ∧
          Apart ⟨h.live, chainPending target + done⟩ (chainFreed source) := by
  induction same generalizing h target' with
  | nil =>
      cases run
      exact ⟨rfl, .nil, fun done => (and_iff_left (apart_nil _)).symm⟩
  | @cons s t source target same _ ih =>
      rw [List.forall_mem_cons] at valid old
      rw [marshableMarshal_cons, marshableUnmarshal, bind_eq_ok] at run
      obtain ⟨⟨t', middle, h₁⟩, head, run⟩ := run
      obtain ⟨⟨next, ends, h₂⟩, tail, run⟩ := bind_eq_ok.mp run
      cases run
      have object := unmarshal_unmarshals (a := a) valid.1 old.1 same
        (marshableMarshal source ++ rest) h
      obtain ⟨rfl, restored⟩ := object.restored _ head
      obtain ⟨rfl, others, sound⟩ := ih valid.2 old.2 tail
      refine ⟨rfl, .cons restored others, ?_⟩
      intro done
      have before := object.sound _ head (chainPending target + done)
      have gone := object.gone _ head (chainPending target + done)
      simp only [chainBlocks, chainPending, chainFreed, List.flatMap_cons, add_assoc]
      rw [apart_append_iff gone, ← and_assoc, ← before, add_left_comm, sound, add_left_comm]
      rfl

theorem chain_total (valid : ∀ o ∈ source, o.Valid) (old : ∀ o ∈ target, o.Valid)
    (same : List.Forall₂ Object.SameType source target) (rest : List UInt8) (done : Multiset UInt64)
    (sound : Sound ⟨h.live, chainPending target + done⟩)
    (apart : Apart ⟨h.live, chainPending target + done⟩ (chainFreed source)) :
    marshableUnmarshal a target (marshableMarshal source ++ rest) h = .error .outOfMemory ∨
      ∃ r, marshableUnmarshal a target (marshableMarshal source ++ rest) h = .ok r := by
  induction same generalizing h done with
  | nil => exact .inr ⟨_, rfl⟩
  | @cons s t source target same _ ih =>
      rw [List.forall_mem_cons] at valid old
      have object := unmarshal_unmarshals (a := a) valid.1 old.1 same
        (marshableMarshal source ++ rest) h
      simp only [chainPending, chainFreed, List.flatMap_cons, add_assoc] at sound apart
      rw [marshableMarshal_cons, marshableUnmarshal]
      cases head : t.unmarshal a (s.marshal ++ (marshableMarshal source ++ rest)) h with
      | error e =>
          have mine : Apart ⟨h.live, pending t + (chainPending target + done)⟩ (freed s) :=
            ⟨(List.nodup_append.mp apart.1).1, fun b member => apart.2 b (List.mem_append_left _ member)⟩
          rcases object.total _ sound mine with stopped | ⟨r, found⟩
          · rw [head] at stopped
            cases stopped
            exact .inl rfl
          · rw [head] at found
            cases found
      | ok r =>
          obtain ⟨t', middle, h₁⟩ := r
          obtain ⟨rfl, -⟩ := object.restored _ head
          rw [apart_append_iff (object.gone _ head (chainPending target + done))] at apart
          have after := (object.sound _ head (chainPending target + done)).mpr ⟨sound, apart.1⟩
          have left := apart.2
          rw [add_left_comm] at after left
          rw [ok_bind]
          rcases ih valid.2 old.2 (blocks t' + done) after left with stopped | ⟨⟨next, ends, h₂⟩, found⟩
          · simp only [stopped, error_bind]
            exact .inl trivial
          · simp only [found, ok_bind]
            exact .inr ⟨_, rfl⟩

end Chain

section Bags

def bagHeader : Header where
  unmarshal := 1
  marshal := 2
  size := 3
  print := 4
  allocSize := 72
  next := 0

def fullBag : TaskBlock := { m := bagHeader, capacity := 1, size := 1, tasks := 16, words := [7] }

def emptyBag : TaskBlock := { m := bagHeader, capacity := 1, size := 0, tasks := 32, words := [0] }

theorem fullBag_valid : fullBag.Valid := ⟨rfl, rfl, by decide, by decide⟩

theorem emptyBag_valid : emptyBag.Valid := ⟨rfl, rfl, by decide, by decide⟩

end Bags

/-- What is marshalled is restored if and only if `unmarshal` frees no block that is not live, twice,
or still in use. -/
theorem marshalling_restores_iff (a : Allocator) (source target : List Object) (rest : List UInt8)
    (h : Memory) (valid : ∀ o ∈ source, o.Valid) (old : ∀ o ∈ target, o.Valid)
    (same : List.Forall₂ Object.SameType source target) (sound : Sound ⟨h.live, chainBlocks target⟩)
    (enough : marshableUnmarshal a target (marshableMarshal source ++ rest) h ≠ .error .outOfMemory) :
    Law a source target rest h ↔ Harmless source target h := by
  constructor
  · rintro ⟨-, target', h', run, -, after⟩
    obtain ⟨-, -, iff⟩ := chain_restored valid old same run
    have known := (iff 0).mp (by rwa [add_zero])
    rw [add_zero] at known
    exact known.2
  · intro harmless
    have used : Sound ⟨h.live, chainPending target⟩ := sound.of_le (chainPending_le target)
    rcases chain_total (a := a) valid old same rest 0 (by rwa [add_zero]) (by rwa [add_zero]) with
      stopped | ⟨⟨target', buf, h'⟩, run⟩
    · exact absurd stopped enough
    · obtain ⟨rfl, restored, iff⟩ := chain_restored valid old same run
      have after := (iff 0).mpr (by simpa using ⟨used, harmless⟩)
      rw [add_zero] at after
      exact ⟨length_marshableMarshal valid, target', h', run, restored, after⟩

theorem copied_bag_restored : Law counting [.tidbag fullBag] [.tidbag emptyBag] [] ⟨{16, 32}, 0⟩ := by
  have same : List.Forall₂ Object.SameType [.tidbag fullBag] [.tidbag emptyBag] := .cons trivial .nil
  apply (marshalling_restores_iff counting _ _ _ _ _ _ same _ _).mpr
  · exact (apart_singleton _ 16).mpr ⟨by decide, by decide⟩
  · rintro o (_ | ⟨_, ⟨⟩⟩)
    exact fullBag_valid
  · rintro o (_ | ⟨_, ⟨⟩⟩)
    exact emptyBag_valid
  · exact Sound.single (by decide)
  · nofun

/-- Where the bytes come from another process, the block of the bag is not live. -/
theorem recorded_bag_not_restored :
    (∀ o ∈ [Object.tidbag fullBag], o.Valid) ∧ (∀ o ∈ [Object.tidbag emptyBag], o.Valid) ∧
      List.Forall₂ Object.SameType [.tidbag fullBag] [.tidbag emptyBag] ∧
      Sound ⟨{32}, chainBlocks [.tidbag emptyBag]⟩ ∧
      ¬Law counting [.tidbag fullBag] [.tidbag emptyBag] [] ⟨{32}, 0⟩ := by
  refine ⟨?_, ?_, .cons trivial .nil, Sound.single (by decide), ?_⟩
  · rintro o (_ | ⟨_, ⟨⟩⟩)
    exact fullBag_valid
  · rintro o (_ | ⟨_, ⟨⟩⟩)
    exact emptyBag_valid
  · rintro ⟨-, target', h', run, -⟩
    cases run

end Lotto.MarshalLaw
