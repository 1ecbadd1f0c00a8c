import Lotto.Library.ExactRun
import Lotto.Library.KeyMap
import Lotto.Library.Links
import Lotto.Base

namespace Lotto.Leakcheck

open Library.FaultRun Library.ExactRun Library.KeyMap Library.Links

abbrev Address := UInt64

/-- `sizeof(struct alloc)`: ten frames, the padded number of frames, the link and the size. -/
def allocSize : UInt64 := 104

structure Alloc where
  next : Address
  size : UInt64
  data : List UInt8
  deriving DecidableEq, Repr

structure Lc where
  fini : Bool
  next : Address
  heap : AList fun _ : Address => Alloc

structure RealBlock where
  address : Address
  content : List UInt8
  deriving DecidableEq, Repr

section Operations

def load (a : Address) (s : Lc) : Except Fault Alloc :=
  match s.heap.lookup a with
  | none => .error .leakDead
  | some alloc => .ok alloc

def nextOf (prev : Option Address) (s : Lc) : Except Fault Address :=
  match prev with
  | none => .ok s.next
  | some p => do
      let alloc ← load p s
      .ok alloc.next

/-- `prev->next = next`. -/
def setNext (prev : Option Address) (next : Address) (s : Lc) : Except Fault Lc :=
  match prev with
  | none => .ok { s with next := next }
  | some p => do
      let alloc ← load p s
      .ok { s with heap := s.heap.replace p { alloc with next := next } }

def memmgrAlloc (size : UInt64) (real : RealBlock) (s : Lc) :
    Except Fault (Address × Lc) :=
  if s.fini then .ok (real.address, s)
  else do
    check (real.address != 0) .leakNull
    check (allocSize ≤ size + allocSize) .leakDead
    .ok (real.address + allocSize, { s with
      next := real.address
      heap := s.heap.insert real.address ⟨s.next, size, real.content⟩ })

def findPrev (a : Address) : Nat → Option Address → Lc → Except Fault (Option Address)
  | 0, _, _ => .error .leakUnknown
  | rounds + 1, prev, s => do
      let next ← nextOf prev s
      if next = a then .ok prev else findPrev a rounds (some next) s

def memmgrFree (ptr : Address) (s : Lc) : Except Fault Lc :=
  if ptr = 0 then .ok s
  else if s.fini then .ok s
  else do
    let a := ptr - allocSize
    let prev ← findPrev a (s.heap.keys.length + 2) none s
    let next ← nextOf (some a) s
    let s ← setNext prev next s
    .ok { s with heap := s.heap.erase a }

def storeData (a : Address) (offset : Nat) (bytes : List UInt8) (s : Lc) :
    Except Fault Lc := do
  let alloc ← load a s
  check (offset + bytes.length ≤ alloc.data.length) .leakDead
  .ok { s with heap := s.heap.replace a { alloc with
    data := alloc.data.take offset ++ bytes ++ alloc.data.drop (offset + bytes.length) } }

/-- `memmgr_realloc`. Its `a` is the data pointer that `memmgr_alloc` returns, so that `a->data` lies
one header behind the data. -/
def memmgrRealloc (ptr : Address) (size : UInt64) (real : RealBlock) (s : Lc) :
    Except Fault (Address × Lc) :=
  if s.fini then .ok (real.address, s)
  else do
    let (a, s) ← memmgrAlloc size real s
    if ptr = 0 ∨ a = 0 then .ok (a + allocSize, s)
    else do
      let old ← load (ptr - allocSize) s
      let size := if old.size < size then old.size else size
      let s ← storeData (a - allocSize) allocSize.toNat (old.data.take size.toNat) s
      let s ← memmgrFree ptr s
      .ok (a + allocSize, s)

end Operations

section Sessions

/-- The checker and what its caller knows: the live pointers with their sizes, and whether the last
`memmgr_realloc` kept the bytes. -/
structure Session where
  lc : Lc
  live : List (Address × UInt64)
  kept : Bool

def bytesAt (ptr : Address) (s : Lc) : List UInt8 :=
  match s.heap.lookup (ptr - allocSize) with
  | none => []
  | some alloc => alloc.data

def sizeAt (ptr : Address) (live : List (Address × UInt64)) : UInt64 :=
  match live.find? fun record => record.1 == ptr with
  | none => 0
  | some record => record.2

inductive Call where
  | alloc (size : UInt64) (real : RealBlock)
  | realloc (ptr : Address) (size : UInt64) (real : RealBlock)
  | free (ptr : Address)
  deriving DecidableEq, Repr

def Call.exec : Call → Session → Except Fault Session
  | .alloc size real, s => do
      let (ptr, lc) ← memmgrAlloc size real s.lc
      .ok { s with lc := lc, live := (ptr, size) :: s.live }
  | .realloc ptr size real, s => do
      let (new, lc) ← memmgrRealloc ptr size real s.lc
      let common := min (sizeAt ptr s.live).toNat size.toNat
      .ok {
        lc := lc
        live := (new, size) :: s.live.eraseP fun record => record.1 == ptr
        kept := (bytesAt new lc).take common == (bytesAt ptr s.lc).take common }
  | .free ptr, s => do
      let lc ← memmgrFree ptr s.lc
      .ok { s with lc := lc, live := s.live.eraseP fun record => record.1 == ptr }

def Lc.link (s : Lc) (a : Address) : Option Address := (s.heap.lookup a).map Alloc.next

def Lc.record (s : Lc) (a : Address) : Address × UInt64 :=
  (a + allocSize, ((s.heap.lookup a).map Alloc.size).getD 0)

/-- The list holds one entry for each live pointer, which is its data pointer, with its size. -/
def Tracks (s : Session) : Prop :=
  ∃ entries, Linked 0 s.lc.link s.lc.next entries ∧ s.live.Perm (entries.map s.lc.record)

/-- The list tracks the live pointers, no reallocation lost bytes, and nothing failed. -/
def TracksRight : Except Fault Session → Prop
  | .ok s => Tracks s ∧ s.kept = true
  | .error _ => False

/-- The real allocator succeeds with a block that is not live and does not reach the end of memory. -/
def RealFresh (s : Session) (size : UInt64) (real : RealBlock) : Prop :=
  real.address ≠ 0 ∧ real.address ∉ s.lc.heap ∧
    real.address.toNat + (size + allocSize).toNat < UInt64.size

/-- Calls with pointers that were returned and are live, or null, while the real allocator behaves. -/
def Lawful (s : Session) : Call → Prop
  | .alloc size real => RealFresh s size real
  | .realloc ptr size real => RealFresh s size real ∧ (ptr = 0 ∨ ptr ∈ s.live.map Prod.fst)
  | .free ptr => ptr = 0 ∨ ptr ∈ s.live.map Prod.fst

/-- Every call but `memmgr_realloc`, with sizes that leave room for the header. -/
def WithoutRealloc (_ : Session) : Call → Prop
  | .alloc size _ => allocSize ≤ size + allocSize
  | .realloc _ _ _ => False
  | .free _ => True

def start : Session := ⟨⟨false, 0, ∅⟩, [], true⟩

end Sessions

variable {s s' : Session} {lc : Lc} {a b x y ptr : Address} {prev : Option Address}
  {size : UInt64} {real : RealBlock} {front back entries : List Address}

section Walk

theorem link_eq_some : lc.link a = some y ↔ ∃ alloc, lc.heap.lookup a = some alloc ∧ alloc.next = y :=
  Option.map_eq_some_iff

theorem nextOf_some (link : lc.link a = some y) : nextOf (some a) lc = .ok y := by
  obtain ⟨alloc, found, rfl⟩ := link_eq_some.mp link
  rw [nextOf, load, found]
  rfl

theorem findPrev_eq {n : Nat} (linked : Linked 0 lc.link x (front ++ a :: back))
    (starts : nextOf prev lc = .ok x) (other : a ∉ front) (enough : front.length < n) :
    findPrev a n prev lc = .ok (front.getLast?.or prev) := by
  induction front generalizing x prev n with
  | nil =>
      obtain ⟨n, rfl⟩ : ∃ m, n = m + 1 := Nat.exists_eq_add_one.mpr enough
      obtain ⟨rfl, -⟩ := linked
      rw [findPrev, starts, ok_bind, if_pos rfl]
      rfl
  | cons b front ih =>
      obtain ⟨n, rfl⟩ : ∃ m, n = m + 1 := Nat.exists_eq_add_one.mpr (Nat.zero_lt_of_lt enough)
      obtain ⟨rfl, -, y, link, rest⟩ := linked
      obtain ⟨differs, other⟩ := not_or.mp (mt List.mem_cons.mpr other)
      rw [findPrev, starts, ok_bind, if_neg (Ne.symm differs),
        ih rest (nextOf_some link) other (Nat.lt_of_succ_lt_succ enough), List.getLast?_cons]
      cases front.getLast? <;> rfl

end Walk

section Steps

structure Tracked (s : Session) (entries : List Address) : Prop where
  fini : s.lc.fini = false
  linked : Linked 0 s.lc.link s.lc.next entries
  distinct : entries.Nodup
  nonzero : ∀ e ∈ entries, e + allocSize ≠ 0
  live : s.live.Perm (entries.map s.lc.record)
  kept : s.kept = true

theorem start_tracked : Tracked start [] :=
  ⟨rfl, rfl, List.nodup_nil, fun _ member => absurd member List.not_mem_nil, .nil, rfl⟩

theorem Tracked.right (tracked : Tracked s entries) : TracksRight (.ok s) :=
  ⟨⟨entries, tracked.linked, tracked.live⟩, tracked.kept⟩

theorem Tracked.mem_heap (tracked : Tracked s entries) (member : a ∈ entries) : a ∈ s.lc.heap := by
  obtain ⟨y, link⟩ := tracked.linked.readable member
  obtain ⟨alloc, found, -⟩ := link_eq_some.mp link
  exact mem_of_lookup found

theorem Tracked.entry_of_live (tracked : Tracked s entries) (live : ptr ∈ s.live.map Prod.fst) :
    ∃ e ∈ entries, ptr = e + allocSize := by
  rw [(tracked.live.map Prod.fst).mem_iff, List.map_map, List.mem_map] at live
  obtain ⟨e, member, rfl⟩ := live
  exact ⟨e, member, rfl⟩

theorem memmgrAlloc_eq (fini : lc.fini = false) (nonnull : real.address ≠ 0)
    (room : allocSize ≤ size + allocSize) :
    memmgrAlloc size real lc = .ok (real.address + allocSize, { lc with
      next := real.address
      heap := lc.heap.insert real.address ⟨lc.next, size, real.content⟩ }) := by
  rw [memmgrAlloc, if_neg (by rw [fini]; exact Bool.false_ne_true), bne_iff_ne.mpr nonnull,
    check_true, ok_bind, decide_eq_true room, check_true, ok_bind]

theorem data_pointer_nonzero (fresh : RealFresh s size real)
    (room : allocSize ≤ size + allocSize) : real.address + allocSize ≠ 0 := by
  obtain ⟨-, -, below⟩ := fresh
  rw [show UInt64.size = 18446744073709551616 from rfl] at below
  have least := UInt64.le_iff_toNat_le.mp room
  intro zero
  have value := congrArg UInt64.toNat zero
  rw [UInt64.toNat_add, Nat.mod_eq_of_lt (by omega)] at value
  change _ + 104 = 0 at value
  omega

theorem Tracked.alloc (tracked : Tracked s entries) (fresh : RealFresh s size real)
    (room : allocSize ≤ size + allocSize) :
    ∃ s', (Call.alloc size real).exec s = .ok s' ∧ Tracked s' (real.address :: entries) := by
  have nonzero := data_pointer_nonzero fresh room
  obtain ⟨nonnull, unused, -⟩ := fresh
  have other (e : Address) (member : e ∈ entries) : e ≠ real.address := by
    rintro rfl
    exact unused (tracked.mem_heap member)
  refine ⟨_, by rw [Call.exec, memmgrAlloc_eq tracked.fini nonnull room]; rfl, ?_⟩
  refine ⟨tracked.fini, ⟨rfl, nonnull, s.lc.next, ?_, tracked.linked.congr fun e member => ?_⟩,
    List.nodup_cons.mpr ⟨fun member => other _ member rfl, tracked.distinct⟩, ?_, ?_, tracked.kept⟩
  · simp [Lc.link]
  · simp [Lc.link, AList.lookup_insert_ne (other e member)]
  · intro e member
    obtain rfl | old := List.mem_cons.mp member
    · exact nonzero
    · exact tracked.nonzero e old
  · have same (e : Address) (member : e ∈ entries) :
        Lc.record { s.lc with next := real.address
                              heap := s.lc.heap.insert real.address ⟨s.lc.next, size, real.content⟩ } e =
          s.lc.record e := by
      simp [Lc.record, AList.lookup_insert_ne (other e member)]
    rw [List.map_cons, List.map_congr_left same]
    simpa [Lc.record] using tracked.live.cons (real.address + allocSize, size)

theorem unlink_eq (linked : Linked 0 lc.link lc.next (front ++ a :: back))
    (distinct : (front ++ a :: back).Nodup) :
    ∃ lc' y, nextOf (some a) lc = .ok y ∧ setNext front.getLast? y lc = .ok lc' ∧
      lc'.fini = lc.fini ∧ Linked 0 (fun b => if b = a then none else lc'.link b) lc'.next
        (front ++ back) ∧
      ∀ b, (lc'.heap.lookup b).map Alloc.size = (lc.heap.lookup b).map Alloc.size := by
  obtain ⟨y, behind, rest⟩ := linked.behind
  have apart : a ∉ front ++ back := by
    rw [List.nodup_middle, List.nodup_cons] at distinct
    exact distinct.1
  obtain rfl | ⟨front, p, rfl⟩ := List.eq_nil_or_concat front
  · refine ⟨{ lc with next := y }, y, nextOf_some behind, rfl, rfl, ?_, fun _ => rfl⟩
    refine rest.congr fun b member => if_neg ?_
    rintro rfl
    exact apart member
  · rw [List.concat_eq_append, List.append_assoc, List.singleton_append] at linked distinct
    rw [List.concat_eq_append] at apart ⊢
    obtain ⟨z, link⟩ := linked.readable (List.mem_append_right _ List.mem_cons_self)
    obtain ⟨block, found, -⟩ := link_eq_some.mp link
    have known := mem_of_lookup found
    refine ⟨{ lc with heap := lc.heap.replace p { block with next := y } }, y, nextOf_some behind,
      ?_, rfl, ?_, fun b => ?_⟩
    · rw [List.getLast?_concat, setNext, load, found]
      rfl
    · rw [List.append_assoc, List.singleton_append] at apart ⊢
      refine (linked.bypass distinct behind).congr fun b member => ?_
      have different : b ≠ a := by
        rintro rfl
        exact apart member
      rw [if_neg different, Lc.link, lookup_replace known, Function.update_apply]
      split <;> rfl
    · rw [lookup_replace known]
      split
      · rename_i same
        rw [same, found]
        rfl
      · rfl

theorem Tracked.free_null (tracked : Tracked s entries) :
    (Call.free 0).exec s = .ok s := by
  have absent : s.live.eraseP (fun record => record.1 == 0) = s.live := by
    rw [List.eraseP_eq_self_iff]
    intro record member zero
    have live := List.mem_map_of_mem (f := Prod.fst) member
    obtain ⟨e, entry, same⟩ := tracked.entry_of_live live
    exact tracked.nonzero e entry (same.symm.trans (beq_iff_eq.mp zero))
  rw [Call.exec, memmgrFree, if_pos rfl, ok_bind, absent]

theorem Tracked.free (tracked : Tracked s entries) (live : ptr ∈ s.live.map Prod.fst) :
    ∃ s' entries', (Call.free ptr).exec s = .ok s' ∧ Tracked s' entries' := by
  obtain ⟨e, member, rfl⟩ := tracked.entry_of_live live
  obtain ⟨front, back, rfl⟩ := List.append_of_mem member
  have nonzero := tracked.nonzero e member
  have distinct := tracked.distinct
  obtain ⟨lc, y, next, set, fini, linked, sizes⟩ := unlink_eq tracked.linked distinct
  obtain ⟨apart, rest⟩ := List.nodup_cons.mp (List.nodup_middle.mp distinct)
  have keys : (front ++ e :: back).length ≤ s.lc.heap.keys.length :=
    (List.subperm_of_subset distinct fun b entry => tracked.mem_heap entry).length_le
  have walk := findPrev_eq (n := s.lc.heap.keys.length + 2) tracked.linked
    (show nextOf none s.lc = .ok s.lc.next from rfl)
    (fun first => apart (List.mem_append_left _ first))
    (by rw [List.length_append] at keys; omega)
  have freed : memmgrFree (e + allocSize) s.lc = .ok { lc with heap := lc.heap.erase e } := by
    rw [memmgrFree, if_neg nonzero, tracked.fini, if_neg Bool.false_ne_true]
    simp only [UInt64.add_sub_cancel, walk, ok_bind, next, Option.or_none, set]
  have other (b : Address) (entry : b ∈ front ++ back) : b ≠ e := by
    rintro rfl
    exact apart entry
  have old (b : Address) (entry : b ∈ front ++ back) : b ∈ front ++ e :: back := by
    rw [List.mem_append] at entry ⊢
    exact entry.imp_right (List.mem_cons_of_mem e)
  refine ⟨_, front ++ back, by rw [Call.exec, freed, ok_bind], ?_⟩
  refine ⟨fini.trans tracked.fini, linked.congr fun b entry => ?_, rest,
    fun b entry => tracked.nonzero b (old b entry), ?_, tracked.kept⟩
  · rw [if_neg (other b entry), Lc.link, AList.lookup_erase_ne (other b entry), Lc.link]
  · have same (b : Address) (entry : b ∈ front ++ back) :
        Lc.record { lc with heap := lc.heap.erase e } b = s.lc.record b := by
      rw [Lc.record, AList.lookup_erase_ne (other b entry), sizes, Lc.record]
    have differs (b : Address) (entry : b ∈ front ++ back) :
        ¬((s.lc.record b).1 == e + allocSize) = true := by
      rw [beq_iff_eq]
      exact fun equal => other b entry ((UInt64.add_left_inj _).mp equal)
    have pairwise : ((front ++ e :: back).map s.lc.record).Pairwise fun first second =>
        (first.1 == e + allocSize) = true → (second.1 == e + allocSize) = true → False := by
      rw [List.pairwise_map]
      refine distinct.imp fun {b c} different first second => different ?_
      have equal := (beq_iff_eq.mp first).trans (beq_iff_eq.mp second).symm
      exact (UInt64.add_left_inj _).mp equal
    have erased := (List.Perm.eraseP _ pairwise tracked.live.symm).symm
    rw [List.map_append, List.map_cons, List.eraseP_append_right _ ?_, List.eraseP_cons_of_pos ?_,
      ← List.map_append] at erased
    · rw [List.map_congr_left same]
      exact erased
    · exact beq_self_eq_true _
    · intro record first
      obtain ⟨b, entry, rfl⟩ := List.mem_map.mp first
      exact differs b (List.mem_append_left _ entry)

end Steps

section Realloc

theorem findPrev_some {n : Nat} {p : Address} (found : findPrev a n (some p) lc = .ok prev) :
    ∃ q, prev = some q := by
  induction n generalizing p with
  | zero => cases found
  | succ n ih =>
      rw [findPrev] at found
      obtain ⟨next, -, found⟩ := bind_eq_ok.mp found
      split at found
      · cases found
        exact ⟨p, rfl⟩
      · exact ih found

theorem setNext_some {lc' : Lc} {p : Address} (set : setNext (some p) y lc = .ok lc') :
    lc'.next = lc.next := by
  obtain ⟨block, -, set⟩ := bind_eq_ok.mp set
  cases set
  rfl

theorem memmgrFree_next {lc' : Lc} (freed : memmgrFree ptr lc = .ok lc')
    (other : lc.next ≠ ptr - allocSize) : lc'.next = lc.next := by
  rw [memmgrFree] at freed
  split at freed
  · cases freed
    rfl
  · split at freed
    · cases freed
      rfl
    · obtain ⟨prev, walk, freed⟩ := bind_eq_ok.mp freed
      obtain ⟨next, -, freed⟩ := bind_eq_ok.mp freed
      obtain ⟨set, assigned, freed⟩ := bind_eq_ok.mp freed
      cases freed
      rw [findPrev, nextOf, ok_bind, if_neg other] at walk
      obtain ⟨p, rfl⟩ := findPrev_some walk
      have kept := setNext_some assigned
      exact kept

theorem storeData_next {lc' : Lc} {offset : Nat} {bytes : List UInt8}
    (stored : storeData a offset bytes lc = .ok lc') : lc'.next = lc.next := by
  obtain ⟨block, -, stored⟩ := bind_eq_ok.mp stored
  obtain ⟨-, -, stored⟩ := bind_eq_ok.mp stored
  cases stored
  rfl

theorem memmgrRealloc_pointer {lc' : Lc} {new : Address} (fini : lc.fini = false)
    (other : ptr = 0 ∨ real.address ≠ ptr - allocSize)
    (done : memmgrRealloc ptr size real lc = .ok (new, lc')) :
    new = real.address + allocSize + allocSize ∧ lc'.next = real.address := by
  rw [memmgrRealloc, fini, if_neg Bool.false_ne_true] at done
  obtain ⟨⟨pointer, allocated⟩, alloc, done⟩ := bind_eq_ok.mp done
  have made : pointer = real.address + allocSize ∧ allocated.next = real.address := by
    rw [memmgrAlloc, fini, if_neg Bool.false_ne_true] at alloc
    obtain ⟨-, -, alloc⟩ := bind_eq_ok.mp alloc
    obtain ⟨-, -, alloc⟩ := bind_eq_ok.mp alloc
    cases alloc
    exact ⟨rfl, rfl⟩
  obtain ⟨rfl, first⟩ := made
  dsimp only at done
  split at done
  · cases done
    exact ⟨rfl, first⟩
  · rename_i ordinary
    obtain ⟨old, -, done⟩ := bind_eq_ok.mp done
    obtain ⟨copied, stored, done⟩ := bind_eq_ok.mp done
    obtain ⟨freed, free, done⟩ := bind_eq_ok.mp done
    cases done
    have kept := storeData_next stored
    have away := other.resolve_left (not_or.mp ordinary).1
    refine ⟨rfl, ?_⟩
    rw [memmgrFree_next free (by rwa [kept, first]), kept, first]

theorem not_one_header_behind (a : Address) : a ≠ a + allocSize :=
  fun same => absurd (UInt64.left_eq_add.mp same) (by decide)

theorem Tracked.realloc (tracked : Tracked s entries) (fresh : RealFresh s size real)
    (live : ptr = 0 ∨ ptr ∈ s.live.map Prod.fst) :
    ¬TracksRight ((Call.realloc ptr size real).exec s) := by
  obtain ⟨nonnull, unused, -⟩ := fresh
  have away : ptr = 0 ∨ real.address ≠ ptr - allocSize := by
    refine live.imp_right fun live same => ?_
    obtain ⟨e, member, rfl⟩ := tracked.entry_of_live live
    rw [UInt64.add_sub_cancel] at same
    rw [same] at unused
    exact unused (tracked.mem_heap member)
  cases done : (Call.realloc ptr size real).exec s with
  | error fault => exact id
  | ok s' =>
      rintro ⟨⟨entries', linked, perm⟩, -⟩
      obtain ⟨⟨new, lc'⟩, moved, done⟩ := bind_eq_ok.mp done
      cases done
      obtain ⟨rfl, first⟩ := memmgrRealloc_pointer tracked.fini away moved
      dsimp only at linked perm
      rw [first] at linked
      cases entries' with
      | nil => exact nonnull linked
      | cons e entries' =>
          obtain ⟨rfl, -⟩ := linked
          have listed := perm.mem_iff.mpr (List.mem_map_of_mem (f := lc'.record) List.mem_cons_self)
          obtain same | old := List.mem_cons.mp listed
          · exact not_one_header_behind _ (congrArg Prod.fst same)
          · obtain ⟨e, member, same⟩ :=
              tracked.entry_of_live (List.mem_map_of_mem (f := Prod.fst) (List.mem_of_mem_eraseP old))
            rw [(UInt64.add_left_inj _).mp same] at unused
            exact unused (tracked.mem_heap member)

end Realloc

section Runs

theorem tracked_exact : Exact Call.exec TracksRight Lawful WithoutRealloc
    fun s => ∃ entries, Tracked s entries where
  holds := fun _ ⟨_, tracked⟩ => tracked.right
  keeps := by
    rintro s call ⟨entries, tracked⟩ lawful allowed
    have goes : ∃ s' entries', call.exec s = .ok s' ∧ Tracked s' entries' := by
      cases call with
      | alloc size real =>
          obtain ⟨s', done, now⟩ := tracked.alloc lawful allowed
          exact ⟨s', _, done, now⟩
      | realloc ptr size real => exact allowed.elim
      | free ptr =>
          obtain rfl | live := lawful
          · exact ⟨s, entries, tracked.free_null, tracked⟩
          · exact tracked.free live
    obtain ⟨s', entries', done, now⟩ := goes
    rw [done]
    refine ⟨now.right, fun next same => ?_⟩
    cases same
    exact ⟨entries', now⟩
  loses := by
    rintro s call ⟨entries, tracked⟩ lawful refused
    cases call with
    | alloc size real =>
        have narrow : decide (allocSize ≤ size + allocSize) = false := decide_eq_false refused
        have fault : (Call.alloc size real).exec s = .error .leakDead := by
          rw [Call.exec, memmgrAlloc, tracked.fini, if_neg Bool.false_ne_true,
            bne_iff_ne.mpr lawful.1, check_true, ok_bind, narrow]
          rfl
        rw [fault]
        exact id
    | realloc ptr size real => exact tracked.realloc lawful.1 lawful.2
    | free ptr => exact absurd trivial refused

/-- The list tracks the live allocations all along a run exactly when the run does not reallocate and
each allocation has room for the header. -/
theorem tracks_live_iff (calls : List Call) (lawful : AllowedAlong Call.exec Lawful calls start) :
    HoldsAlong Call.exec TracksRight calls start ↔
      AllowedAlong Call.exec WithoutRealloc calls start :=
  tracked_exact.holdsAlong_iff calls ⟨[], start_tracked⟩ lawful

theorem alloc_free_tracked :
    HoldsAlong Call.exec TracksRight [.alloc 8 ⟨4096, []⟩, .free 4200] start ↔
      AllowedAlong Call.exec WithoutRealloc [.alloc 8 ⟨4096, []⟩, .free 4200] start := by
  refine tracks_live_iff _ ⟨⟨by decide, by decide, by decide⟩, fun s done => ?_⟩
  cases done
  exact ⟨.inr (by decide), fun _ _ => trivial⟩

/-- A block from a reallocation of the null pointer is lost: the pointer is not the data pointer of
its entry, and freeing it runs off the end of the list. -/
theorem realloc_null_loses :
    ¬HoldsAlong Call.exec TracksRight [.realloc 0 8 ⟨4096, []⟩] start ∧
      AllowedAlong Call.exec Lawful [.realloc 0 8 ⟨4096, []⟩, .free 4304] start ∧
      ∃ s, (Call.realloc 0 8 ⟨4096, []⟩).exec start = .ok s ∧ s.live = [(4304, 8)] ∧
        s.lc.next = 4096 ∧ (Call.free 4304).exec s = .error .leakDead := by
  have fresh : RealFresh start 8 ⟨4096, []⟩ := ⟨by decide, by decide, by decide⟩
  refine ⟨fun along => start_tracked.realloc fresh (.inl rfl) along.2.1,
    ⟨⟨fresh, .inl rfl⟩, fun s done => ?_⟩, _, rfl, rfl, rfl, rfl⟩
  cases done
  exact ⟨.inr (by decide), fun _ _ => trivial⟩

end Runs

end Lotto.Leakcheck
