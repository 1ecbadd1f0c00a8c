import Lotto.Sampling

namespace Lotto.Sampling

open MemoryMap
open Library.Trim (Padding Trimmed trim)

section Line

variable {P : Type} (doubles : Doubles P)

theorem hash_not_space : isSpace hashSign = false := by decide

theorem equals_not_space : isSpace equalsSign = false := by decide

theorem equals_not_padding {s : List UInt8} (padding : Padding isSpace s) : equalsSign ∉ s := by
  intro member
  have space := padding equalsSign member
  rw [equals_not_space] at space
  cases space

theorem blank_iff (line : List UInt8) :
    Blank line ↔ trim isSpace line = [] ∨ (trim isSpace line).head? = some hashSign := by
  constructor
  · rintro ⟨front, rest, rfl, padding, rfl | hash⟩
    · left
      simpa using Library.Trim.trim_parts (b := []) padding Library.Trim.padding_nil
        Library.Trim.trimmed_nil
    · right
      cases rest with
      | nil => cases hash
      | cons c rest =>
          cases hash
          have clear : ∀ hs : hashSign :: rest ≠ [], ¬ isSpace ((hashSign :: rest).head hs) = true := by
            simp [hash_not_space]
          rw [trim, List.dropWhile_append_of_pos padding, Library.Trim.dropWhile_clear clear]
          have kept : (hashSign :: rest).rdropWhile isSpace ≠ [] := by
            simp [List.rdropWhile_eq_nil_iff, hash_not_space]
          rw [List.head?_eq_some_head kept, (List.rdropWhile_prefix isSpace _).head kept]
          rfl
  · intro h
    obtain ⟨a, b, split, ha, hb, -⟩ := Library.Trim.trim_cut (p := isSpace) line
    rcases h with empty | hash
    · exact ⟨line, [], by simp, by rw [empty] at split; rw [split]; simpa using ha.append hb, .inl rfl⟩
    · exact ⟨a, _, split, ha, .inr (by rw [List.head?_append, hash]; rfl)⟩

theorem cut_equals {a behind : List UInt8} (plain : equalsSign ∉ a) :
    (a ++ equalsSign :: behind).takeWhile (· != equalsSign) = a ∧
      (a ++ equalsSign :: behind).dropWhile (· != equalsSign) = equalsSign :: behind := by
  induction a with
  | nil => simp
  | cons c a ih =>
      simp only [List.mem_cons, not_or] at plain
      have other : (c != equalsSign) = true := by simpa using Ne.symm plain.1
      simpa [other] using ih plain.2

theorem no_equals {s : List UInt8} (plain : equalsSign ∉ s) :
    s.dropWhile (· != equalsSign) = [] := by
  simp only [List.dropWhile_eq_nil_iff]
  intro c hc
  have other : c ≠ equalsSign := fun same => plain (same ▸ hc)
  simpa using other

theorem reads_of_parse {line : List UInt8} {e : ConfigEntry P}
    (parsed : parseLine doubles line = .entry e) : Reads doubles line e := by
  have same : trimRight (trimLeft line) = trim isSpace line := rfl
  obtain ⟨a, b, split, ha, hb, trimmed⟩ := Library.Trim.trim_cut (p := isSpace) line
  rw [parseLine, same] at parsed
  generalize trim isSpace line = t at *
  simp only at parsed
  split at parsed
  · cases parsed
  rename_i says_something
  rw [not_or] at says_something
  by_cases some_equals : equalsSign ∈ t
  · obtain ⟨before, behind, rfl, plain⟩ := List.eq_append_cons_of_mem some_equals
    rw [(cut_equals plain).1, (cut_equals plain).2] at parsed
    simp only at parsed
    split at parsed
    · cases parsed
    rename_i one
    have sameName : trimRight (trimLeft before) = trim isSpace before := rfl
    have sameValue : trimRight (trimLeft behind) = trim isSpace behind := rfl
    rw [sameName, sameValue] at parsed
    obtain ⟨n₁, n₂, name, hn₁, hn₂, nameTrimmed⟩ := Library.Trim.trim_cut (p := isSpace) before
    obtain ⟨v₁, v₂, value, hv₁, hv₂, valueTrimmed⟩ := Library.Trim.trim_cut (p := isSpace) behind
    generalize trim isSpace before = m at *
    generalize trim isSpace behind = v at *
    subst name value split
    split at parsed
    · cases parsed
    rename_i named
    split at parsed
    · cases parsed
    rename_i valued
    split at parsed
    · cases parsed
    rename_i short
    split at parsed
    · cases parsed
    rename_i p probability
    cases parsed
    simp only [List.mem_append, not_or] at plain one
    -- the trimmed line starts with the name itself
    have nameFirst : n₁ = [] := by
      cases n₁ with
      | nil => rfl
      | cons c n₁ => exact absurd (hn₁ c List.mem_cons_self) (trimmed.front (by simp))
    subst nameFirst
    constructor
    · refine ⟨a, n₂, v₁, v₂ ++ b, v, by simp, ha, hn₂, hv₁, hv₂.append hb, valueTrimmed, valued,
        one.2.1, probability⟩
    · exact nameTrimmed
    · exact named
    · exact plain.2.1
    · intro hash
      apply says_something.2
      simp [List.head?_append, hash]
    · exact Nat.le_of_not_lt short
  · rw [no_equals some_equals] at parsed
    cases parsed

theorem parse_of_reads {line : List UInt8} {e : ConfigEntry P} (h : Reads doubles line e) :
    parseLine doubles line = .entry e := by
  obtain ⟨s₁, s₂, s₃, s₄, value, rfl, h₁, h₂, h₃, h₄, valueTrimmed, valued, one, probability⟩ :=
    h.parts
  have same : ∀ s, trimRight (trimLeft s) = trim isSpace s := fun _ => rfl
  obtain ⟨p, name⟩ := e
  have nameTrimmed := h.trimmed
  have named := h.named
  have plain := h.plain
  have comment := h.comment
  have short := h.short
  simp only at *
  have trimmed : Trimmed isSpace (name ++ (s₂ ++ equalsSign :: (s₃ ++ value))) := by
    constructor
    · intro hs
      rw [List.head_append_of_ne_nil named]
      exact nameTrimmed.front named
    · intro hs
      simpa [valued] using valueTrimmed.back valued
  have kept : trim isSpace (s₁ ++ (name ++ (s₂ ++ equalsSign :: (s₃ ++ (value ++ s₄))))) =
      (name ++ s₂) ++ equalsSign :: (s₃ ++ value) := by
    have parts := Library.Trim.trim_parts h₁ h₄ trimmed
    simpa using parts
  have plainFront : equalsSign ∉ name ++ s₂ := by
    simp only [List.mem_append, not_or]
    exact ⟨plain, equals_not_padding h₂⟩
  have plainBack : equalsSign ∉ s₃ ++ value := by
    simp only [List.mem_append, not_or]
    exact ⟨equals_not_padding h₃, one⟩
  have keptName : trim isSpace (name ++ s₂) = name := by
    simpa using Library.Trim.trim_parts (a := []) Library.Trim.padding_nil h₂ nameTrimmed
  have keptValue : trim isSpace (s₃ ++ value) = value := by
    simpa using Library.Trim.trim_parts (b := []) h₃ Library.Trim.padding_nil valueTrimmed
  have something : ¬ ((name ++ s₂) ++ equalsSign :: (s₃ ++ value) = [] ∨
      ((name ++ s₂) ++ equalsSign :: (s₃ ++ value)).head? = some hashSign) := by
    cases name with
    | nil => exact absurd rfl named
    | cons d name => simpa using comment
  rw [parseLine, same, kept]
  simp only [something, ↓reduceIte, (cut_equals plainFront).1, (cut_equals plainFront).2, plainBack,
    same, keptName, keptValue, named, valued, Nat.not_lt.mpr short, probability]

theorem parseLine_entry_iff {line : List UInt8} {e : ConfigEntry P} :
    parseLine doubles line = .entry e ↔ Reads doubles line e :=
  ⟨reads_of_parse doubles, parse_of_reads doubles⟩

theorem parseLine_skip_iff {line : List UInt8} : parseLine doubles line = .skip ↔ Blank line := by
  have same : trimRight (trimLeft line) = trim isSpace line := rfl
  rw [blank_iff, parseLine, same]
  constructor
  · intro parsed
    by_contra something
    simp only [something, ↓reduceIte] at parsed
    split at parsed
    · cases parsed
    split at parsed
    · cases parsed
    repeat (split at parsed; · cases parsed)
    cases parsed
  · intro nothing
    simp only [nothing, ↓reduceIte]

end Line

section Text

variable {P : Type} (doubles : Doubles P)

def startLine (start : List UInt8) : List (List UInt8) → List (List UInt8)
  | [] => if start = [] then [] else [start]
  | line :: lines => (start ++ line) :: lines

def parseLines : Nat → List (List UInt8) → ParseState P → ParseState P
  | _, [], s => s
  | lineno, line :: lines, s => parseLines (lineno + 1) lines (parseStep doubles lineno line s)

theorem linesOf_cons {c : UInt8} (other : c ≠ newline) (text : List UInt8) :
    linesOf (c :: text) = startLine [c] (linesOf text) := by
  rw [linesOf, if_neg other]
  cases linesOf text <;> simp [startLine]

theorem startLine_startLine (start : List UInt8) (c : UInt8) (lines : List (List UInt8)) :
    startLine start (startLine [c] lines) = startLine (start ++ [c]) lines := by
  cases lines <;> simp [startLine]

theorem parseText_lines (text : List UInt8) : ∀ lineno acc s,
    parseText doubles lineno acc text s =
      parseLines doubles lineno (startLine acc.reverse (linesOf text)) s := by
  induction text with
  | nil =>
      intro lineno acc s
      by_cases empty : acc = []
      · simp [parseText, linesOf, startLine, parseLines, empty]
      · simp [parseText, linesOf, startLine, parseLines, empty]
  | cons c text ih =>
      intro lineno acc s
      by_cases line : c = newline
      · rw [parseText, if_pos line, ih, linesOf, if_pos line]
        have rest : startLine ([] : List UInt8).reverse (linesOf text) = linesOf text := by
          cases linesOf text <;> simp [startLine]
        rw [rest, startLine, List.append_nil, parseLines]
      · rw [parseText, if_neg line, ih, linesOf_cons line, startLine_startLine,
          List.reverse_cons]

def entryOf (line : List UInt8) : Option (ConfigEntry P) :=
  match parseLine doubles line with
  | .entry e => some e
  | _ => none

def reported (line : List UInt8) : Bool :=
  match parseLine doubles line with
  | .error _ _ => true
  | _ => false

theorem entryOf_iff {line : List UInt8} {e : ConfigEntry P} :
    entryOf doubles line = some e ↔ Reads doubles line e := by
  rw [← parseLine_entry_iff, entryOf]
  split <;> simp_all

theorem reported_iff {line : List UInt8} : reported doubles line = true ↔ Bad doubles line := by
  rw [Bad, ← parseLine_skip_iff doubles, reported]
  simp only [← parseLine_entry_iff]
  split
  · rename_i failed
    simp [failed]
  · rename_i other
    cases read : parseLine doubles line with
    | skip => simp
    | entry e => simp
    | error msg detail => exact absurd read (other msg detail)

def reportedLines : Nat → List (List UInt8) → List Nat
  | _, [] => []
  | lineno, line :: lines =>
      if reported doubles line = true then lineno :: reportedLines (lineno + 1) lines
      else reportedLines (lineno + 1) lines

theorem parseStep_spec (lineno : Nat) (line : List UInt8) (s : ParseState P) :
    (parseStep doubles lineno line s).entries = (entryOf doubles line).toList ++ s.entries ∧
      (parseStep doubles lineno line s).errors.map Prod.fst =
        s.errors.map Prod.fst ++ (if reported doubles line = true then [lineno] else []) ∧
      (parseStep doubles lineno line s).ok = (s.ok && !reported doubles line) := by
  rw [parseStep, entryOf, reported]
  cases parseLine doubles line with
  | skip => simp
  | entry e => simp
  | error msg detail => simp

theorem parseLines_spec (lines : List (List UInt8)) : ∀ lineno (s : ParseState P),
    (parseLines doubles lineno lines s).entries =
        (lines.filterMap (entryOf doubles)).reverse ++ s.entries ∧
      (parseLines doubles lineno lines s).errors.map Prod.fst =
        s.errors.map Prod.fst ++ reportedLines doubles lineno lines ∧
      (parseLines doubles lineno lines s).ok =
        (s.ok && lines.all fun line => !reported doubles line) := by
  induction lines with
  | nil => simp [parseLines, reportedLines]
  | cons line lines ih =>
      intro lineno s
      obtain ⟨entries, errors, ok⟩ := parseStep_spec doubles lineno line s
      obtain ⟨entries', errors', ok'⟩ := ih (lineno + 1) (parseStep doubles lineno line s)
      rw [parseLines, reportedLines]
      refine ⟨?_, ?_, ?_⟩
      · rw [entries', entries]
        cases read : entryOf doubles line with
        | none => simp [read]
        | some e => simp [read]
      · rw [errors', errors]
        split <;> simp
      · rw [ok', ok, List.all_cons, Bool.and_assoc]

theorem mem_reportedLines (lines : List (List UInt8)) : ∀ lineno k,
    k ∈ reportedLines doubles lineno lines ↔
      ∃ i line, k = lineno + i ∧ lines[i]? = some line ∧ reported doubles line = true := by
  induction lines with
  | nil => simp [reportedLines]
  | cons line lines ih =>
      intro lineno k
      have later : k ∈ reportedLines doubles (lineno + 1) lines ↔
          ∃ i other, k = lineno + (i + 1) ∧ (line :: lines)[i + 1]? = some other ∧
            reported doubles other = true := by
        rw [ih]
        simp only [List.getElem?_cons_succ, Nat.add_assoc, Nat.add_comm 1]
      have split : (∃ i other, k = lineno + i ∧ (line :: lines)[i]? = some other ∧
            reported doubles other = true) ↔ (k = lineno ∧ reported doubles line = true) ∨
          k ∈ reportedLines doubles (lineno + 1) lines := by
        rw [later]
        constructor
        · rintro ⟨i, other, at_i, here, bad⟩
          cases i with
          | zero =>
              cases here
              exact .inl ⟨at_i, bad⟩
          | succ i => exact .inr ⟨i, other, at_i, here, bad⟩
        · rintro (⟨first, bad⟩ | ⟨i, other, at_i, here, bad⟩)
          · exact ⟨0, line, first, rfl, bad⟩
          · exact ⟨i + 1, other, at_i, here, bad⟩
      rw [split, reportedLines]
      split <;> simp_all

theorem reportedLines_sorted (lines : List (List UInt8)) : ∀ lineno,
    (reportedLines doubles lineno lines).Pairwise (· < ·) := by
  induction lines with
  | nil => simp [reportedLines]
  | cons line lines ih =>
      intro lineno
      rw [reportedLines]
      split
      · refine List.pairwise_cons.mpr ⟨fun k hk => ?_, ih _⟩
        obtain ⟨i, -, rfl, -⟩ := (mem_reportedLines doubles lines (lineno + 1) k).mp hk
        omega
      · exact ih _

end Text

section Engine

variable {P : Type} (doubles : Doubles P)

theorem bagUnmarshal_reverse (bag : List (ConfigEntry P)) : bagUnmarshal bag = bag.reverse := by
  have fold : ∀ front : List (ConfigEntry P),
      bag.foldl (fun bag item => item :: bag) front = bag.reverse ++ front := by
    induction bag with
    | nil => simp
    | cons item bag ih => simp [ih]
  rw [bagUnmarshal, fold, List.append_nil]

theorem bagCarried_eq (n : Nat) : ∀ bag : List (ConfigEntry P),
    bagCarried n bag = if n % 2 = 1 then bag.reverse else bag := by
  induction n with
  | zero => simp [bagCarried]
  | succ n ih =>
      intro bag
      rw [bagCarried, ih, bagMarshal, bagUnmarshal_reverse, List.reverse_reverse]
      rcases Nat.mod_two_eq_zero_or_one n with even | odd
      · rw [if_neg (by omega), if_pos (by omega)]
      · rw [if_pos odd, if_neg (by omega)]

def loadEntry (types : EventTypes) (drop : TypeId → P) (entry : ConfigEntry P) : TypeId → P :=
  if types.lookup entry.name ≥ types.maxTypes ∨ types.lookup entry.name = types.anyEvent then drop
  else Function.update drop (types.lookup entry.name) (doubles.oneMinus entry.p)

theorem loadState_fold (types : EventTypes) (bag : List (ConfigEntry P)) :
    loadState doubles types bag = bag.foldl (loadEntry doubles types) fun _ => doubles.zero := rfl

theorem loadEntry_other {types : EventTypes} {drop : TypeId → P} {entry : ConfigEntry P} {t : TypeId}
    (other : types.lookup entry.name ≠ t ∨ types.maxTypes ≤ t ∨ t = types.anyEvent) :
    loadEntry doubles types drop entry t = drop t := by
  rw [loadEntry]
  split
  · rfl
  · rename_i known
    rw [not_or] at known
    apply Function.update_of_ne
    rintro rfl
    rcases other with other | large | any
    · exact other rfl
    · exact known.1 large
    · exact known.2 any

theorem load_other {types : EventTypes} {t : TypeId} (bag : List (ConfigEntry P)) :
    ∀ drop : TypeId → P, (∀ entry ∈ bag, types.lookup entry.name ≠ t ∨ types.maxTypes ≤ t ∨
      t = types.anyEvent) → bag.foldl (loadEntry doubles types) drop t = drop t := by
  induction bag with
  | nil => simp
  | cons entry bag ih =>
      intro drop other
      rw [List.foldl_cons, ih _ fun e he => other e (List.mem_cons_of_mem entry he)]
      exact loadEntry_other doubles (other entry List.mem_cons_self)

theorem load_last {types : EventTypes} {t : TypeId} {before after : List (ConfigEntry P)}
    {entry : ConfigEntry P} (named : types.lookup entry.name = t) (small : t < types.maxTypes)
    (specific : t ≠ types.anyEvent) (last : ∀ e ∈ after, types.lookup e.name ≠ t) :
    loadState doubles types (before ++ entry :: after) t = doubles.oneMinus entry.p := by
  rw [loadState_fold, List.foldl_append, List.foldl_cons,
    load_other doubles after _ fun e he => .inl (last e he), loadEntry, if_neg, named,
    Function.update_self]
  rw [named]
  rintro (large | any)
  · exact absurd large (Nat.not_le.mpr small)
  · exact specific any

/-- What a configuration means for the engine, which gets it over `n` records. -/
structure Configures (types : EventTypes) (text : List UInt8) (n : Nat) : Prop where
  accepted : (samplingParseConfig doubles text).ok = true ↔ ∀ line ∈ linesOf text, ¬ Bad doubles line
  /-- Every bad line is reported, once and in order. -/
  sorted : ((samplingParseConfig doubles text).errors.map Prod.fst).Pairwise (· < ·)
  reports : ∀ k, k ∈ (samplingParseConfig doubles text).errors.map Prod.fst ↔
    ∃ i line, k = i + 1 ∧ (linesOf text)[i]? = some line ∧ Bad doubles line
  /-- One bad line takes back the whole configuration. -/
  rejected : (samplingParseConfig doubles text).ok = false →
    ∀ t, engineDrop doubles types text n t = doubles.zero
  unnamed : ∀ t, (∀ line ∈ linesOf text, ∀ e, ¬ Names doubles types t e line) ∨
    types.maxTypes ≤ t ∨ t = types.anyEvent → engineDrop doubles types text n t = doubles.zero
  /-- Over an odd number of records the last line for a type decides, over an even one the first. -/
  named : (samplingParseConfig doubles text).ok = true → ∀ t before line after e,
    linesOf text = before ++ line :: after → Names doubles types t e line → t < types.maxTypes →
      t ≠ types.anyEvent →
      (∀ other ∈ if n % 2 = 1 then after else before, ∀ e', ¬ Names doubles types t e' other) →
      engineDrop doubles types text n t = doubles.oneMinus e.p

theorem samplingParseConfig_spec (text : List UInt8) :
    (samplingParseConfig doubles text).ok = (linesOf text).all (fun line => !reported doubles line) ∧
      (samplingParseConfig doubles text).errors.map Prod.fst =
        reportedLines doubles 1 (linesOf text) ∧
      (samplingParseConfig doubles text).entries =
        if (samplingParseConfig doubles text).ok = true then
          ((linesOf text).filterMap (entryOf doubles)).reverse
        else [] := by
  have whole : startLine ([] : List UInt8).reverse (linesOf text) = linesOf text := by
    cases linesOf text <;> simp [startLine]
  obtain ⟨entries, errors, ok⟩ := parseLines_spec doubles (linesOf text) 1 ⟨true, [], []⟩
  rw [samplingParseConfig, parseText_lines, whole]
  simp only [List.append_nil, List.map_nil, List.nil_append, Bool.true_and] at entries errors ok
  split
  · exact ⟨ok, errors, entries⟩
  · exact ⟨ok, errors, rfl⟩

theorem engineDrop_eq (types : EventTypes) (text : List UInt8) (n : Nat) :
    engineDrop doubles types text n = loadState doubles types
      (if (samplingParseConfig doubles text).ok = true then
        if n % 2 = 1 then (linesOf text).filterMap (entryOf doubles)
        else ((linesOf text).filterMap (entryOf doubles)).reverse
      else []) := by
  rw [engineDrop, bagCarried_eq, (samplingParseConfig_spec doubles text).2.2]
  congr 1
  split <;> split <;> simp

theorem entries_other {types : EventTypes} {t : TypeId} {lines : List (List UInt8)}
    (other : ∀ line ∈ lines, ∀ e, ¬ Names doubles types t e line) :
    ∀ entry ∈ lines.filterMap (entryOf doubles), types.lookup entry.name ≠ t := by
  intro entry member same
  obtain ⟨line, here, read⟩ := List.mem_filterMap.mp member
  exact other line here entry ⟨(entryOf_iff doubles).mp read, same⟩

/-- The engine samples the types of events as the lines of the configuration say. -/
theorem sampling_configures (types : EventTypes) (text : List UInt8) (n : Nat) :
    Configures doubles types text n := by
  obtain ⟨ok, errors, -⟩ := samplingParseConfig_spec doubles text
  have unnamed : ∀ t, (∀ line ∈ linesOf text, ∀ e, ¬ Names doubles types t e line) ∨
      types.maxTypes ≤ t ∨ t = types.anyEvent → engineDrop doubles types text n t = doubles.zero := by
    intro t other
    rw [engineDrop_eq, loadState_fold]
    apply load_other
    intro entry member
    rcases other with none_named | outside
    · left
      apply entries_other doubles none_named
      split at member
      · split at member
        · exact member
        · exact List.mem_reverse.mp member
      · cases member
    · exact .inr outside
  constructor
  case accepted =>
    rw [ok, List.all_eq_true]
    simp only [Bool.not_eq_true', ← reported_iff doubles, Bool.not_eq_true]
  case sorted =>
    rw [errors]
    exact reportedLines_sorted doubles _ 1
  case reports =>
    intro k
    rw [errors, mem_reportedLines]
    simp only [reported_iff, Nat.add_comm 1]
  case rejected =>
    intro bad t
    rw [engineDrop_eq, if_neg (by rw [bad]; exact Bool.false_ne_true)]
    rfl
  case unnamed => exact unnamed
  case named =>
    intro good t before line after e split names small specific last
    have read : entryOf doubles line = some e := (entryOf_iff doubles).mpr names.1
    have entries : (linesOf text).filterMap (entryOf doubles) =
        before.filterMap (entryOf doubles) ++ e :: after.filterMap (entryOf doubles) := by
      rw [split, List.filterMap_append, List.filterMap_cons_some read]
    rw [engineDrop_eq, if_pos good, entries]
    by_cases odd : n % 2 = 1
    · rw [if_pos odd] at last ⊢
      exact load_last doubles names.2 small specific (entries_other doubles last)
    · rw [if_neg odd] at last ⊢
      have earlier : ∀ entry ∈ (before.filterMap (entryOf doubles)).reverse,
          types.lookup entry.name ≠ t :=
        fun entry member => entries_other doubles last entry (List.mem_reverse.mp member)
      rw [List.reverse_append, List.reverse_cons, List.append_assoc]
      exact load_last doubles names.2 small specific earlier

end Engine

end Lotto.Sampling
