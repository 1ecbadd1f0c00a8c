import Lotto.StableAddress
import Mathlib.Data.List.Pairwise
import Mathlib.Data.Nat.Digits.Lemmas

namespace Lotto.MemoryMap

open Library.FaultRun

section Format

def hexChar (digit : Nat) : UInt8 := UInt8.ofNat (if digit < 10 then 48 + digit else 87 + digit)

def hexText (width n : Nat) : List UInt8 :=
  (Nat.digits 16 n ++ List.replicate (max 1 width - (Nat.digits 16 n).length) 0).reverse.map hexChar

/-- The columns of a line of `/proc/pid/maps`; the widths are what its numbers are padded to. -/
structure MapsLine where
  startWidth : Nat
  addressStart : Nat
  endWidth : Nat
  addressEnd : Nat
  mode : List UInt8
  offsetWidth : Nat
  offset : Nat
  device : List UInt8
  inode : List UInt8
  spacing : Nat
  name : List UInt8
  deriving DecidableEq, Repr

def minusSign : UInt8 := 45

def space : UInt8 := 32

def MapsLine.text (l : MapsLine) : List UInt8 :=
  hexText l.startWidth l.addressStart ++ minusSign :: (hexText l.endWidth l.addressEnd ++ space ::
    (l.mode ++ space :: (hexText l.offsetWidth l.offset ++ space :: (l.device ++ space :: (l.inode ++
      (List.replicate l.spacing space ++ (l.name ++ [newline])))))))

/-- The columns have no spaces of their own, the name has a column in front, and fits. -/
structure MapsLine.WellFormed (l : MapsLine) : Prop where
  mode : l.mode.length = 4
  device : ∀ c ∈ l.device, isSpace c = false
  inode : ∀ c ∈ l.inode, isSpace c = false
  name : ∀ c, l.name.head? = some c → isSpace c = false
  apart : l.name ≠ [] → 0 < l.spacing
  short : l.name.length < pathMax

def saturated (n : Nat) : UInt64 := UInt64.ofNat (min longMax n)

def MapsLine.entry (l : MapsLine) : MemoryMapEntry where
  addressStart := saturated l.addressStart
  addressEnd := saturated l.addressEnd
  offset := saturated l.offset
  name := l.name

end Format

variable {n width value d : Nat} {c x : UInt8} {text rest name : List UInt8} {l : MapsLine}

section Numbers

theorem hexDigit_hexChar (digit : d < 16) : hexDigit (hexChar d) = some d := by
  have all : ∀ i : Fin 16, hexDigit (hexChar i) = some (i : Nat) := by decide
  exact all ⟨d, digit⟩

theorem hexChar_plain (digit : d < 16) : isSpace (hexChar d) = false ∧ hexChar d ≠ 45 ∧
    hexChar d ≠ 43 ∧ hexChar d ≠ 120 ∧ hexChar d ≠ 88 := by
  have all : ∀ i : Fin 16, isSpace (hexChar i) = false ∧ hexChar i ≠ 45 ∧
      hexChar i ≠ 43 ∧ hexChar i ≠ 120 ∧ hexChar i ≠ 88 := by
    decide
  exact all ⟨d, digit⟩

/-- A text that ends a number: it starts with a space or with a minus. -/
def Ends (rest : List UInt8) : Prop := ∃ c tail, rest = c :: tail ∧ (c = minusSign ∨ c = space)

theorem ends_minus (tail : List UInt8) : Ends (minusSign :: tail) := ⟨_, _, rfl, .inl rfl⟩

theorem ends_space (tail : List UInt8) : Ends (space :: tail) := ⟨_, _, rfl, .inr rfl⟩

theorem readDigits_text {digits : List Nat} (small : ∀ d ∈ digits, d < 16) (ends : Ends rest)
    (value : Nat) : readDigits value (digits.map hexChar ++ rest) =
      (digits.foldl (fun value digit => 16 * value + digit) value, rest) := by
  induction digits generalizing value with
  | nil =>
      obtain ⟨c, tail, rfl, rfl | rfl⟩ := ends <;> rfl
  | cons d digits ih =>
      have first := hexDigit_hexChar (small d List.mem_cons_self)
      simp only [List.map_cons, List.cons_append, readDigits, first, List.foldl_cons]
      exact ih (fun d member => small d (List.mem_cons_of_mem _ member)) _

theorem readSign_plain (plus : c ≠ 43) (minus : c ≠ 45) (text : List UInt8) :
    readSign (c :: text) = (false, c :: text) := by
  unfold readSign
  split
  · next same => exact absurd (List.cons.inj same).1 minus
  · next same => exact absurd (List.cons.inj same).1 plus
  · rfl

theorem skipPrefix_plain (lower : x ≠ 120) (upper : x ≠ 88) (text : List UInt8) :
    skipPrefix (c :: x :: text) = c :: x :: text := by
  unfold skipPrefix
  split
  · next same =>
      obtain ⟨rfl, tail⟩ := List.cons.inj same
      obtain ⟨rfl, rfl⟩ := List.cons.inj tail
      simp [lower, upper]
  · rfl

theorem hexText_digits (width n : Nat) : ∃ digits : List Nat, hexText width n = digits.map hexChar ∧
    digits ≠ [] ∧ (∀ d ∈ digits, d < 16) ∧
    digits.foldl (fun value digit => 16 * value + digit) 0 = n := by
  refine ⟨_, rfl, ?_, ?_, ?_⟩
  · intro empty
    have length := congrArg List.length empty
    simp only [List.length_reverse, List.length_append, List.length_replicate,
      List.length_nil] at length
    omega
  · intro d member
    rw [List.mem_reverse, List.mem_append] at member
    rcases member with digit | zero
    · exact Nat.digits_lt_base (by decide) digit
    · rw [List.eq_of_mem_replicate zero]
      decide
  · have value := Nat.ofDigits_eq_foldr 16
      (Nat.digits 16 n ++ List.replicate (max 1 width - (Nat.digits 16 n).length) 0)
    rw [Nat.ofDigits_append_replicate_zero, Nat.ofDigits_digits] at value
    have turned : (fun digit value : Nat => 16 * value + digit) =
        fun digit value => digit + 16 * value := by
      funext digit value
      exact Nat.add_comm _ _
    rw [List.foldl_reverse, turned]
    exact value.symm

theorem strtol_hexText (width n : Nat) (ends : Ends rest) :
    strtol (hexText width n ++ rest) = (((min longMax n : Nat) : Int), rest) := by
  obtain ⟨digits, text, some, small, value⟩ := hexText_digits width n
  obtain ⟨d, digits, rfl⟩ := List.exists_cons_of_ne_nil some
  have first := hexChar_plain (small d List.mem_cons_self)
  have read := readDigits_text small ends 0
  rw [value] at read
  have kept : skipPrefix (((d :: digits).map hexChar) ++ rest) = ((d :: digits).map hexChar) ++ rest := by
    cases digits with
    | nil =>
        obtain ⟨c, tail, rfl, rfl | rfl⟩ := ends
        · exact skipPrefix_plain (by decide) (by decide) tail
        · exact skipPrefix_plain (by decide) (by decide) tail
    | cons e digits =>
        have second := hexChar_plain (small e (by simp))
        exact skipPrefix_plain second.2.2.2.1 second.2.2.2.2 _
  have start : ((d :: digits).map hexChar ++ rest).dropWhile isSpace =
      (d :: digits).map hexChar ++ rest :=
    List.dropWhile_cons_of_neg (by simp [first.1])
  have sign : readSign ((d :: digits).map hexChar ++ rest) =
      (false, (d :: digits).map hexChar ++ rest) :=
    readSign_plain first.2.2.1 first.2.1 _
  have head : (((d :: digits).map hexChar ++ rest).head?.bind hexDigit).isSome = true := by
    simp [hexDigit_hexChar (small d List.mem_cons_self)]
  rw [text, strtol, start, sign]
  simp only [kept, head, if_true, read, Bool.false_eq_true, if_false]
  simp

theorem ofInt_saturated (n : Nat) : UInt64.ofInt ((min longMax n : Nat) : Int) = saturated n := by
  rw [UInt64.ofInt, saturated, longMax]
  congr 1
  omega

end Numbers

section Lines

theorem behind_drop {front : List UInt8} (length : front.length = n) (rest : List UInt8) :
    behind n (front ++ rest) = .ok rest := by
  simp [behind, ← length, ok_bind]

theorem behind_one (c : UInt8) (rest : List UInt8) : behind 1 (c :: rest) = .ok rest :=
  behind_drop (show [c].length = 1 from rfl) rest

theorem skipField_column {column : List UInt8} (plain : ∀ c ∈ column, isSpace c = false)
    (stops : c = newline ∨ isSpace c = true) (first : UInt8) (rest : List UInt8) :
    skipField (first :: (column ++ c :: rest)) = .ok (c :: rest) := by
  have skipped : ∀ c ∈ column, (c != newline && !isSpace c) = true := by
    intro c member
    have real := plain c member
    have visible : c ≠ newline := by
      rintro rfl
      exact absurd real (by decide)
    simp [real, visible]
  have stop : (c != newline && !isSpace c) = false := by
    rcases stops with rfl | real
    · rfl
    · simp [real]
  have moved : (column ++ c :: rest).dropWhile (fun c => c != newline && !isSpace c) = c :: rest := by
    rw [List.dropWhile_append_of_pos skipped, List.dropWhile_cons_of_neg (by simp [stop])]
  rw [skipField, behind_one, ok_bind, moved]
  rfl

theorem skipSpacing_name (spacing : Nat)
    (plain : ∀ c, name.head? = some c → isSpace c = false) :
    skipSpacing (List.replicate spacing space ++ (name ++ [newline])) = name ++ [newline] := by
  have blank : ∀ c ∈ List.replicate spacing space, (c != newline && isSpace c) = true := by
    intro c member
    rw [List.eq_of_mem_replicate member]
    decide
  rw [skipSpacing, List.dropWhile_append_of_pos blank]
  cases name with
  | nil => rfl
  | cons c name =>
      exact List.dropWhile_cons_of_neg (by simp [plain c rfl])

theorem readName_name (plain : ∀ c, name.head? = some c → isSpace c = false)
    (short : name.length < pathMax) : readName (name ++ [newline]) = .ok name := by
  cases name with
  | nil => rfl
  | cons c name =>
      have visible : c ≠ newline := by
        rintro rfl
        exact absurd (plain newline rfl) (by decide)
      have fits : name.length + 1 < pathMax := short
      simp [readName, visible, fits, ok_bind]

theorem MapsLine.WellFormed.line_end (formed : l.WellFormed) : ∃ c tail,
    List.replicate l.spacing space ++ (l.name ++ [newline]) = c :: tail ∧
      (c = newline ∨ isSpace c = true) := by
  cases spacing : l.spacing with
  | zero =>
      have none : l.name = [] := by
        by_contra some
        have apart := formed.apart some
        omega
      exact ⟨newline, [], by rw [none]; rfl, .inl rfl⟩
  | succ spacing => exact ⟨space, _, rfl, .inr (by decide)⟩

theorem parseLine_text (formed : l.WellFormed) : parseLine l.text = .ok l.entry := by
  obtain ⟨c, tail, rest, stops⟩ := formed.line_end
  have mode : behind 6 (space :: (l.mode ++ space ::
      (hexText l.offsetWidth l.offset ++ space :: (l.device ++ space :: (l.inode ++ c :: tail))))) =
      .ok (hexText l.offsetWidth l.offset ++ space :: (l.device ++ space :: (l.inode ++ c :: tail))) := by
    have length : (space :: (l.mode ++ [space])).length = 6 := by simp [formed.mode]
    have moved := behind_drop length
      (hexText l.offsetWidth l.offset ++ space :: (l.device ++ space :: (l.inode ++ c :: tail)))
    simpa using moved
  have device := skipField_column formed.device (c := space) (.inr (by decide)) space
    (l.inode ++ c :: tail)
  have inode := skipField_column formed.inode stops space tail
  have name := readName_name formed.name formed.short
  have spaces := skipSpacing_name l.spacing formed.name
  have again := skipSpacing_name 0 formed.name
  rw [rest] at spaces
  simp only [List.replicate_zero, List.nil_append] at again
  rw [parseLine, MapsLine.text, rest, strtol_hexText l.startWidth l.addressStart (ends_minus _)]
  simp only [behind_one, ok_bind, strtol_hexText l.endWidth l.addressEnd (ends_space _), mode,
    strtol_hexText l.offsetWidth l.offset (ends_space _), device, inode, spaces, again, name]
  simp only [MapsLine.entry, ofInt_saturated]

theorem memoryMapParse_text (lines : List MapsLine) (formed : ∀ l ∈ lines, l.WellFormed) :
    memoryMapParse (lines.map MapsLine.text) = .ok (lines.map MapsLine.entry) := by
  unfold memoryMapParse
  induction lines with
  | nil => rfl
  | cons l lines ih =>
      have rest := ih fun l member => formed l (List.mem_cons_of_mem _ member)
      rw [List.map_cons, List.mapM_cons, parseLine_text (formed l List.mem_cons_self), rest]
      rfl

end Lines

section Spaces

def MapsLine.Holds (l : MapsLine) (a : UInt64) : Prop :=
  l.addressStart ≤ a.toNat ∧ a.toNat < l.addressEnd

instance (l : MapsLine) (a : UInt64) : Decidable (l.Holds a) :=
  inferInstanceAs (Decidable (_ ∧ _))

def MapsLine.position (l : MapsLine) (a : UInt64) : Nat := a.toNat - l.addressStart + l.offset

def MapsLine.Apart (l l' : MapsLine) : Prop :=
  l.addressEnd ≤ l'.addressStart ∨ l'.addressEnd ≤ l.addressStart

instance : Std.Symm MapsLine.Apart := ⟨fun _ _ => Or.symm⟩

/-- The mappings of a process: none from address 0 on, and no two overlap. -/
structure AddressSpace (lines : List MapsLine) : Prop where
  formed : ∀ l ∈ lines, l.WellFormed
  placed : ∀ l ∈ lines, 0 < l.addressStart
  offsets : ∀ l ∈ lines, l.offset ≤ longMax
  apart : lines.Pairwise MapsLine.Apart

variable {lines : List MapsLine} {a : UInt64}

theorem saturated_toNat (n : Nat) : (saturated n).toNat = min longMax n := by
  rw [saturated, UInt64.toNat_ofNat', longMax]
  omega

theorem lookupLoop_entries (placed : ∀ l ∈ lines, 0 < l.addressStart) (user : a.toNat < longMax) :
    lookupLoop a (lines.map MapsLine.entry) =
      (lines.find? fun l => decide (l.Holds a)).map MapsLine.entry := by
  induction lines with
  | nil => rfl
  | cons l lines ih =>
      have start := saturated_toNat l.addressStart
      have stop := saturated_toNat l.addressEnd
      have here : l.entry.addressStart ≠ 0 := by
        intro zero
        have first := placed l List.mem_cons_self
        have value : (saturated l.addressStart).toNat = 0 := congrArg UInt64.toNat zero
        rw [longMax] at start
        omega
      have holds : (l.entry.addressStart > a ∨ a ≥ l.entry.addressEnd) ↔ ¬l.Holds a := by
        rw [MapsLine.Holds, MapsLine.entry, gt_iff_lt, ge_iff_le, UInt64.lt_iff_toNat_lt,
          UInt64.le_iff_toNat_le, start, stop]
        omega
      rw [List.map_cons, lookupLoop, if_neg here, List.find?_cons]
      by_cases inside : l.Holds a
      · simp [holds, inside]
      · simp [holds, inside, ih fun l member => placed l (List.mem_cons_of_mem _ member)]

theorem AddressSpace.found (space : AddressSpace lines) (member : l ∈ lines) (inside : l.Holds a) :
    (lines.find? fun l => decide (l.Holds a)) = some l := by
  cases found : lines.find? fun l => decide (l.Holds a) with
  | none => exact absurd inside (by simpa using List.find?_eq_none.mp found l member)
  | some first =>
      congr 1
      by_contra differs
      have holds : first.Holds a := by simpa using List.find?_some found
      have apart : first.Apart l :=
        space.apart.forall (List.mem_of_find?_eq_some found) member differs
      rw [MapsLine.Apart] at apart
      obtain ⟨low, high⟩ := inside
      obtain ⟨low', high'⟩ := holds
      omega

theorem AddressSpace.stableAddressGet_map (space : AddressSpace lines) (member : l ∈ lines)
    (inside : l.Holds a) (user : a.toNat < longMax) :
    stableAddressGet (lines.map MapsLine.entry) a .map =
      .map ⟨UInt64.ofNat (l.position a), l.name⟩ := by
  have start := saturated_toNat l.addressStart
  have offset := saturated_toNat l.offset
  have bound := space.offsets l member
  rw [stableAddressGet, memoryMapAddressLookup, lookupLoop_entries space.placed user,
    space.found member inside, Option.map_some]
  simp only [MapsLine.entry, StableAddress.map.injEq, MapAddress.mk.injEq, and_true]
  apply UInt64.toNat_inj.mp
  rw [UInt64.toNat_add, UInt64.toNat_sub, start, offset, UInt64.toNat_ofNat', MapsLine.position]
  obtain ⟨low, -⟩ := inside
  rw [longMax] at *
  omega

/-- The text of a program, mapped to `base`, and a mapping above what `strtol` can read. -/
def sampleLines (base : Nat) : List MapsLine :=
  [⟨8, base, 8, base + 8192, [114, 45, 120, 112], 8, 4096, [48, 56, 58, 48, 50], [52, 50], 5, [47, 97]⟩,
    ⟨16, 18446744073699065856, 16, 18446744073699069952, [45, 45, 120, 112], 8, 0,
      [48, 48, 58, 48, 48], [48], 3, [91, 118, 93]⟩]

theorem sampleLines_space {base : Nat} (placed : 0 < base) (low : base < longMax) :
    AddressSpace (sampleLines base) := by
  rw [longMax] at low
  constructor
  case formed =>
    intro l member
    simp only [sampleLines, List.mem_cons, List.not_mem_nil, or_false] at member
    rcases member with rfl | rfl
    · exact ⟨rfl, by simp [isSpace], by simp [isSpace], by simp [isSpace], by simp, by simp [pathMax]⟩
    · exact ⟨rfl, by simp [isSpace], by simp [isSpace], by simp [isSpace], by simp, by simp [pathMax]⟩
  case placed => simp [sampleLines, placed]
  case offsets => simp [sampleLines, longMax]
  case apart =>
    simp [sampleLines, MapsLine.Apart]
    omega

end Spaces

end Lotto.MemoryMap
