import Lotto.Library.CyclicProbe
import Mathlib.Data.Finset.Card
import Mathlib.Data.Finset.Range

namespace Lotto.StringHashTable

open Library.CyclicProbe

/-- `string_table_node_t`. -/
structure Node where
  bucket : Nat
  string : List UInt8
  deriving DecidableEq, Repr

/-- `string_hash_table_t`. -/
structure Table where
  table : Nat → Option Node
  size : Nat

/-- `CAST_TYPE(uint8_t, *string)`: a `char` is signed, and the cast asserts that it is not negative. -/
def castChar (c : UInt8) : Option UInt8 := if c < 0x80 then some c else none

def hashLoop : UInt64 → List UInt8 → Option UInt64
  | hash, [] => some hash
  | hash, c :: string => do
      let c ← castChar c
      hashLoop (hash <<< 5 + hash + c.toUInt64) string

def stringHash (string : List UInt8) : Option UInt64 := hashLoop 5381 string

def Casts (string : List UInt8) : Prop := ∀ c ∈ string, c < 0x80

/-- The hash functions that fail where `string_hash` does, with any hash values. -/
structure HashFunction where
  hash : List UInt8 → Option UInt64
  casts : ∀ string, (hash string).isSome = true ↔ Casts string

/-- `string_hash_table_create`. -/
def create (size : Nat) : Table := ⟨fun _ => none, size⟩

section Operations

variable (hash : List UInt8 → Option UInt64)

def bucketOf (t : Table) (string : List UInt8) : Nat := ((hash string).getD 0).toNat % t.size

def freeIndex (t : Table) (bucket : Nat) : Option Nat :=
  walk t.size (fun index => (t.table index).isSome) t.size bucket

/-- `string_hash_table_insert`; there is no table where the loop does not end or `string_hash`
fails. -/
def insert (t : Table) (string : List UInt8) : Option Table := do
  let value ← hash string
  let bucket := value.toNat % t.size
  let index ← freeIndex t bucket
  some { t with table := Function.update t.table index (some ⟨bucket, string⟩) }

def containsLoop (t : Table) (string : List UInt8) (bucket startingIndex : Nat) :
    Nat → Nat → Bool → Option Nat
  | 0, _, _ => none
  | fuel + 1, index, firstIteration =>
      match t.table index with
      | none => some index
      | some node =>
          if node.bucket ≤ bucket ∧ node.string ≠ string ∧
              (startingIndex ≠ index ∨ firstIteration = true) then
            containsLoop t string bucket startingIndex fuel ((index + 1) % t.size) false
          else some index

/-- `string_hash_table_contains`; there is no result where the loop does not end or `string_hash`
fails. -/
def contains (t : Table) (string : List UInt8) : Option Bool :=
  if t.size = 0 then some false
  else do
    let value ← hash string
    let bucket := value.toNat % t.size
    let index ← containsLoop t string bucket bucket (t.size + 1) bucket true
    match t.table index with
    | none => some false
    | some node => some (decide (node.string = string))

def insertAll : Table → List (List UInt8) → Option Table
  | t, [] => some t
  | t, string :: strings => do
      let t ← insert hash t string
      insertAll t strings

/-- The lookup of a string after some insertions ends and tells whether it was inserted. -/
def LookupRight (size : Nat) (strings : List (List UInt8)) (string : List UInt8) : Prop :=
  ∃ t found, insertAll hash (create size) strings = some t ∧
    contains hash t string = some found ∧ (found = true ↔ string ∈ strings)

end Operations

/-- Some slot from the bucket of a string on has a node of a later bucket before any node of the
string. -/
def Hidden (hash : List UInt8 → Option UInt64) (t : Table) (string : List UInt8) : Prop :=
  ∃ e < t.size,
    (∃ node, t.table (slot t.size (bucketOf hash t string) e) = some node ∧
      bucketOf hash t string < node.bucket) ∧
    ∀ k ≤ e, ∀ node, t.table (slot t.size (bucketOf hash t string) k) = some node →
      node.string ≠ string

def used (t : Table) : Finset Nat := (Finset.range t.size).filter fun i => (t.table i).isSome

structure Built (hash : List UInt8 → Option UInt64) (t : Table) (strings : List (List UInt8)) : Prop where
  real : ∀ i node, t.table i = some node → node.string ∈ strings
  stored : ∀ string ∈ strings, ∃ d < t.size,
    (∃ node, t.table (slot t.size (bucketOf hash t string) d) = some node ∧ node.string = string) ∧
    ∀ e < d, (t.table (slot t.size (bucketOf hash t string) e)).isSome = true
  count : (used t).card = strings.length

variable {hash : List UInt8 → Option UInt64} {t t' : Table} {string : List UInt8}
  {strings : List (List UInt8)} {size : Nat}

section Hash

theorem hashLoop_isSome (hash : UInt64) (string : List UInt8) :
    (hashLoop hash string).isSome = true ↔ Casts string := by
  induction string generalizing hash with
  | nil => simp [hashLoop, Casts]
  | cons c string ih =>
      by_cases low : c < 0x80
      · have step : hashLoop hash (c :: string) =
            hashLoop (hash <<< 5 + hash + c.toUInt64) string := by
          simp [hashLoop, castChar, low]
        rw [step, ih, Casts, Casts, List.forall_mem_cons]
        exact ⟨fun rest => ⟨low, rest⟩, fun both => both.2⟩
      · have failed : hashLoop hash (c :: string) = none := by
          simp [hashLoop, castChar, low]
        rw [failed, Casts, List.forall_mem_cons]
        exact ⟨fun some => absurd some Bool.false_ne_true, fun both => absurd both.1 low⟩

def stringHashFunction : HashFunction := ⟨stringHash, hashLoop_isSome 5381⟩

theorem bucketOf_eq {value : UInt64} (hashed : hash string = some value) (t : Table) :
    value.toNat % t.size = bucketOf hash t string := by
  rw [bucketOf, hashed, Option.getD_some]

theorem insert_hashed (done : insert hash t string = some t') : (hash string).isSome = true := by
  rw [insert] at done
  obtain ⟨value, hashed, -⟩ := Option.bind_eq_some_iff.mp done
  rw [hashed, Option.isSome_some]

theorem insertAll_hashed (done : insertAll hash t strings = some t') :
    ∀ string ∈ strings, (hash string).isSome = true := by
  induction strings generalizing t with
  | nil => exact fun _ none => absurd none List.not_mem_nil
  | cons string strings ih =>
      rw [insertAll] at done
      obtain ⟨next, first, rest⟩ := Option.bind_eq_some_iff.mp done
      rw [List.forall_mem_cons]
      exact ⟨insert_hashed first, ih rest⟩

theorem contains_hashed {found : Bool} (positive : 0 < t.size)
    (done : contains hash t string = some found) : (hash string).isSome = true := by
  rw [contains, if_neg positive.ne'] at done
  obtain ⟨value, hashed, -⟩ := Option.bind_eq_some_iff.mp done
  rw [hashed, Option.isSome_some]

end Hash

section Insert

theorem built_create (hash : List UInt8 → Option UInt64) (size : Nat) : Built hash (create size) [] := by
  constructor
  case real => nofun
  case stored => nofun
  case count =>
    rw [used, List.length_nil, Finset.card_eq_zero]
    apply Finset.filter_false_of_mem
    intro i _
    exact Bool.false_ne_true

theorem bucketOf_lt (hash : List UInt8 → Option UInt64) (positive : 0 < t.size) (string : List UInt8) :
    bucketOf hash t string < t.size := Nat.mod_lt _ positive

theorem exists_free (fewer : (used t).card < t.size) : ∃ i < t.size, t.table i = none := by
  by_contra full
  have all : used t = Finset.range t.size := by
    apply Finset.filter_true_of_mem
    intro i member
    by_contra free
    apply full
    refine ⟨i, Finset.mem_range.mp member, ?_⟩
    exact Option.not_isSome_iff_eq_none.mp free
  rw [all, Finset.card_range] at fewer
  exact Nat.lt_irrefl _ fewer

theorem freeIndex_spec (fewer : (used t).card < t.size) (home : Nat) (inside : home < t.size) :
    ∃ m < t.size, freeIndex t home = some (slot t.size home m) ∧
      t.table (slot t.size home m) = none ∧
      ∀ e < m, (t.table (slot t.size home e)).isSome = true := by
  obtain ⟨i, target, free⟩ := exists_free fewer
  obtain ⟨m, round, first, before⟩ := exists_first (fun i => t.table i = none) inside target free
  have passed : ∀ e < m, (t.table (slot t.size home e)).isSome = true := by
    intro e early
    exact Option.isSome_iff_ne_none.mpr (before e early)
  refine ⟨m, round, ?_, first, passed⟩
  have walked : walk t.size (fun index => (t.table index).isSome) t.size (slot t.size home 0) =
      some (slot t.size home m) :=
    walk_slot (fun k _ early => passed k early) (by rw [first]; rfl) (Nat.zero_le m) (by omega)
  rwa [slot_zero inside] at walked

theorem insert_eq (positive : 0 < t.size) (fewer : (used t).card < t.size)
    (hashed : (hash string).isSome = true) :
    ∃ m < t.size, t.table (slot t.size (bucketOf hash t string) m) = none ∧
      (∀ e < m, (t.table (slot t.size (bucketOf hash t string) e)).isSome = true) ∧
      insert hash t string = some { t with
        table := Function.update t.table (slot t.size (bucketOf hash t string) m)
          (some ⟨bucketOf hash t string, string⟩) } := by
  obtain ⟨m, round, found, free, before⟩ :=
    freeIndex_spec fewer (bucketOf hash t string) (bucketOf_lt hash positive string)
  refine ⟨m, round, free, before, ?_⟩
  obtain ⟨value, here⟩ := Option.isSome_iff_exists.mp hashed
  have bucket := bucketOf_eq here t
  rw [insert, here]
  simp only [Option.bind_eq_bind, Option.bind_some, bucket, found]

theorem card_used_update {index : Nat} {node : Node} (free : t.table index = none)
    (inside : index < t.size) :
    (used { t with table := Function.update t.table index (some node) }).card = (used t).card + 1 := by
  have more : used { t with table := Function.update t.table index (some node) } =
      Insert.insert index (used t) := by
    ext i
    rw [Finset.mem_insert, used, used, Finset.mem_filter, Finset.mem_filter, Finset.mem_range]
    by_cases same : i = index
    · subst same
      simp [inside]
    · simp [same]
  have absent : index ∉ used t := by
    rw [used, Finset.mem_filter, free]
    exact fun both => Bool.false_ne_true both.2
  rw [more, Finset.card_insert_of_notMem absent]

theorem insert_keeps (built : Built hash t strings) (fewer : strings.length < t.size)
    (hashed : (hash string).isSome = true) :
    ∃ t', insert hash t string = some t' ∧ t'.size = t.size ∧ Built hash t' (string :: strings) := by
  have positive : 0 < t.size := Nat.zero_lt_of_lt fewer
  obtain ⟨m, round, free, before, run⟩ :=
    insert_eq positive (built.count ▸ fewer) hashed
  refine ⟨_, run, rfl, ?_⟩
  generalize index_eq : slot t.size (bucketOf hash t string) m = index at free ⊢
  have inside : index < t.size := index_eq ▸ slot_lt (bucketOf_lt hash positive string) m
  have kept (i : Nat) (some : (t.table i).isSome = true) (node : Node) :
      Function.update t.table index (Option.some node) i = t.table i := by
    apply Function.update_of_ne
    rintro rfl
    rw [free] at some
    cases some
  constructor
  case real =>
    intro i node stored
    by_cases same : i = index
    · subst same
      simp only [Function.update_self, Option.some.injEq] at stored
      rw [← stored]
      exact List.mem_cons_self
    · simp only [Function.update_of_ne same] at stored
      exact List.mem_cons_of_mem _ (built.real i node stored)
  case stored =>
    intro other member
    rcases List.mem_cons.mp member with rfl | old
    · refine ⟨m, round, ⟨⟨bucketOf hash t other, other⟩, ?_, rfl⟩, ?_⟩
      · change Function.update t.table index _ (slot t.size (bucketOf hash t other) m) = _
        rw [index_eq, Function.update_self]
      · intro e early
        change (Function.update t.table index _ (slot t.size (bucketOf hash t other) e)).isSome = true
        rw [kept _ (before e early)]
        exact before e early
    · obtain ⟨d, near, ⟨node, there, same⟩, path⟩ := built.stored other old
      refine ⟨d, near, ⟨node, ?_, same⟩, ?_⟩
      · change Function.update t.table index _ (slot t.size (bucketOf hash t other) d) = _
        rw [kept _ (by rw [there]; rfl), there]
      · intro e early
        change (Function.update t.table index _ (slot t.size (bucketOf hash t other) e)).isSome = true
        rw [kept _ (path e early)]
        exact path e early
  case count => rw [card_used_update free inside, built.count, List.length_cons]

theorem insertAll_built (built : Built hash t strings) (more : List (List UInt8))
    (hashed : ∀ string ∈ more, (hash string).isSome = true)
    (fewer : strings.length + more.length < t.size) :
    ∃ t', insertAll hash t more = some t' ∧ t'.size = t.size ∧
      Built hash t' (more.reverse ++ strings) := by
  induction more generalizing t strings with
  | nil => exact ⟨t, rfl, rfl, built⟩
  | cons string more ih =>
      rw [List.length_cons] at fewer
      rw [List.forall_mem_cons] at hashed
      obtain ⟨t', run, same, keeps⟩ := insert_keeps built (by omega) hashed.1
      rw [← same] at fewer
      obtain ⟨t'', runs, size, built'⟩ := ih keeps hashed.2 (by rw [List.length_cons]; omega)
      refine ⟨t'', ?_, size.trans same, ?_⟩
      · rw [insertAll, run]
        exact runs
      · rw [List.reverse_cons, List.append_assoc]
        exact built'

end Insert

section Contains

def Passes (hash : List UInt8 → Option UInt64) (t : Table) (string : List UInt8) (i : Nat) : Prop :=
  ∃ node, t.table i = some node ∧ node.bucket ≤ bucketOf hash t string ∧ node.string ≠ string

/-- The loop ends at the first slot that it does not pass, before it is back at its first one. -/
theorem containsLoop_eq {m e : Nat} (fuel : Nat) (inside : bucketOf hash t string < t.size)
    (round : m < t.size) (before : ∀ k < m, Passes hash t string (slot t.size (bucketOf hash t string) k))
    (stop : ¬Passes hash t string (slot t.size (bucketOf hash t string) m)) (reached : e ≤ m)
    (enough : m < e + fuel) :
    containsLoop t string (bucketOf hash t string) (bucketOf hash t string) fuel
        (slot t.size (bucketOf hash t string) e) (decide (e = 0)) =
      some (slot t.size (bucketOf hash t string) m) := by
  induction fuel generalizing e with
  | zero => omega
  | succ fuel ih =>
      rcases Nat.eq_or_lt_of_le reached with rfl | ahead
      · rw [containsLoop]
        cases here : t.table (slot t.size (bucketOf hash t string) e) with
        | none => rfl
        | some node =>
            apply if_neg
            rintro ⟨low, differs, -⟩
            exact stop ⟨node, here, low, differs⟩
      · obtain ⟨node, here, low, differs⟩ := before e ahead
        have goesOn : bucketOf hash t string ≠ slot t.size (bucketOf hash t string) e ∨
            decide (e = 0) = true := by
          rcases Nat.eq_zero_or_pos e with rfl | away
          · exact .inr rfl
          · exact .inl (slot_ne_home inside away (by omega)).symm
        have later : decide (e + 1 = 0) = false := rfl
        rw [containsLoop, here]
        simp only [if_pos (And.intro low (And.intro differs goesOn))]
        rw [← slot_succ, ← later]
        exact ih ahead (by omega)

theorem contains_spec (hashed : (hash string).isSome = true) (fewer : (used t).card < t.size) :
    ∃ m < t.size, (∀ k < m, Passes hash t string (slot t.size (bucketOf hash t string) k)) ∧
      ¬Passes hash t string (slot t.size (bucketOf hash t string) m) ∧
      ∃ found, contains hash t string = some found ∧
        (found = true ↔
          ∃ node, t.table (slot t.size (bucketOf hash t string) m) = some node ∧
            node.string = string) := by
  have positive : 0 < t.size := Nat.zero_lt_of_lt fewer
  have inside := bucketOf_lt hash positive string
  obtain ⟨i, target, free⟩ := exists_free fewer
  have stops : ¬Passes hash t string i := by
    rintro ⟨node, here, -⟩
    rw [free] at here
    cases here
  obtain ⟨m, round, stop, before⟩ :=
    exists_first (fun i => ¬Passes hash t string i) inside target stops
  have passed (k : Nat) (early : k < m) := not_not.mp (before k early)
  refine ⟨m, round, passed, stop, ?_⟩
  have loop := containsLoop_eq (e := 0) (t.size + 1) inside round passed stop
    (Nat.zero_le m) (by omega)
  rw [slot_zero inside, decide_eq_true rfl] at loop
  obtain ⟨value, here⟩ := Option.isSome_iff_exists.mp hashed
  have bucket := bucketOf_eq here t
  rw [contains, if_neg positive.ne', here]
  simp only [Option.bind_eq_bind, Option.bind_some, bucket, loop]
  cases here : t.table (slot t.size (bucketOf hash t string) m) with
  | none => exact ⟨false, rfl, by simp⟩
  | some node => exact ⟨decide (node.string = string), rfl, by simp⟩

theorem contains_true_iff (built : Built hash t strings) (fewer : strings.length < t.size)
    (hashed : (hash string).isSome = true) (member : string ∈ strings) :
    contains hash t string = some true ↔ ¬Hidden hash t string := by
  obtain ⟨m, round, passed, stop, found, run, found_iff⟩ :=
    contains_spec hashed (built.count ▸ fewer)
  rw [run, Option.some.injEq, found_iff]
  constructor
  · rintro ⟨node, here, same⟩ ⟨e, near, ⟨later, there, larger⟩, absent⟩
    rcases Nat.lt_or_ge e m with early | late
    · obtain ⟨other, same', low, -⟩ := passed e early
      rw [there] at same'
      cases same'
      omega
    · exact absent m late node here same
  · intro seen
    obtain ⟨d, near, ⟨node, here, same⟩, path⟩ := built.stored string member
    have early : m ≤ d := by
      by_contra beyond
      obtain ⟨other, there, -, differs⟩ := passed d (Nat.not_le.mp beyond)
      rw [here] at there
      cases there
      exact differs same
    have some : ∃ node, t.table (slot t.size (bucketOf hash t string) m) = some node := by
      rcases Nat.eq_or_lt_of_le early with rfl | before
      · exact ⟨node, here⟩
      · exact Option.isSome_iff_exists.mp (path m before)
    obtain ⟨last, there⟩ := some
    refine ⟨last, there, ?_⟩
    by_contra differs
    apply seen
    refine ⟨m, round, ⟨last, there, ?_⟩, ?_⟩
    · by_contra low
      exact stop ⟨last, there, Nat.not_lt.mp low, differs⟩
    · intro k low other there'
      rcases Nat.eq_or_lt_of_le low with rfl | before
      · rw [there] at there'
        cases there'
        exact differs
      · obtain ⟨same', at', -, other'⟩ := passed k before
        rw [there'] at at'
        cases at'
        exact other'

end Contains

/-- A lookup after fewer insertions than slots ends and is right if and only if all strings can be
hashed and the string was not inserted or is not hidden. -/
theorem lookup_right_iff (h : HashFunction) (size : Nat) (strings : List (List UInt8))
    (fewer : strings.length < size) (string : List UInt8) :
    LookupRight h.hash size strings string ↔ (∀ other ∈ string :: strings, Casts other) ∧
      (string ∈ strings → ∀ t, insertAll h.hash (create size) strings = some t →
        ¬Hidden h.hash t string) := by
  have hashes : (∀ other ∈ string :: strings, Casts other) ↔
      (h.hash string).isSome = true ∧ ∀ other ∈ strings, (h.hash other).isSome = true := by
    simp only [List.forall_mem_cons, h.casts]
  -- once all strings have a hash, the table is built and the lookup ends
  have built (hashed : ∀ other ∈ strings, (h.hash other).isSome = true) :
      ∃ t, insertAll h.hash (create size) strings = some t ∧ t.size = size ∧
        Built h.hash t strings.reverse := by
    obtain ⟨t, run, same, built⟩ := insertAll_built (built_create h.hash size) strings hashed
      (by rw [List.length_nil, Nat.zero_add]; exact fewer)
    rw [List.append_nil] at built
    exact ⟨t, run, same, built⟩
  rw [hashes]
  constructor
  · rintro ⟨t, found, run, ends, right⟩
    have hashed := insertAll_hashed run
    obtain ⟨t', run', same, built⟩ := built hashed
    rw [run] at run'
    cases run'
    have hashed' := contains_hashed (by omega) ends
    refine ⟨⟨hashed', hashed⟩, ?_⟩
    intro member t' run'
    rw [run] at run'
    cases run'
    rw [← contains_true_iff built (by rw [List.length_reverse, same]; exact fewer) hashed'
      (List.mem_reverse.mpr member), ends, right.mpr member]
  · rintro ⟨⟨hashed', hashed⟩, shown⟩
    obtain ⟨t, run, same, built⟩ := built hashed
    have few : strings.reverse.length < t.size := by
      rw [List.length_reverse, same]
      exact fewer
    obtain ⟨m, round, passed, stop, found, ends, found_iff⟩ :=
      contains_spec hashed' (built.count ▸ few)
    refine ⟨t, found, run, ends, ?_⟩
    by_cases member : string ∈ strings
    · have seen := (contains_true_iff built few hashed' (List.mem_reverse.mpr member)).mpr
        (shown member t run)
      rw [ends, Option.some.injEq] at seen
      exact ⟨fun _ => member, fun _ => seen⟩
    · rw [found_iff]
      refine ⟨?_, fun inserted => absurd inserted member⟩
      rintro ⟨node, here, rfl⟩
      exact List.mem_reverse.mp (built.real _ node here)

section Letters

def letterC : List UInt8 := [0x63]

def letterD : List UInt8 := [0x64]

def letterG : List UInt8 := [0x67]

end Letters

theorem two_strings_right :
    LookupRight stringHash 4 [letterC, letterD] letterD ↔
      (∀ other ∈ [letterD, letterC, letterD], Casts other) ∧
        (letterD ∈ [letterC, letterD] → ∀ t,
          insertAll stringHash (create 4) [letterC, letterD] = some t → ¬Hidden stringHash t letterD) :=
  lookup_right_iff stringHashFunction 4 [letterC, letterD] (by decide) letterD

/-- The node of `d` is between the bucket of `g` and the slot of `g`. The first byte of an `é` in
UTF-8 is a negative `char`. -/
theorem third_string_missed :
    (∃ t, insertAll stringHash (create 4) [letterC, letterD, letterG] = some t ∧
      contains stringHash t letterG = some false) ∧
    insertAll stringHash (create 4) [[0xC3, 0xA9]] = none :=
  ⟨⟨_, rfl, rfl⟩, rfl⟩

end Lotto.StringHashTable
