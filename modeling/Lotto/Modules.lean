import Lotto.Library.Fields
import Lotto.Base

namespace Lotto.Modules

open Library.FaultRun Library.Fields

abbrev Name := List Char

structure Module where
  name : Name
  shadowed : Bool
  disabled : Bool
  deriving DecidableEq, Repr

def maxModuleNameLength : Nat := 1023

section Operations

/-- `lotto_module_foreach`, with a function that returns the module as it leaves it. -/
def lottoModuleForeach (f : Module → Nat × Module) : List Module → Nat × List Module
  | [] => (0, [])
  | m :: ms =>
      if m.shadowed || m.disabled then
        let rest := lottoModuleForeach f ms
        (rest.1, m :: rest.2)
      else
        let (val, m) := f m
        if val ≠ 0 then (val, m :: ms)
        else
          let rest := lottoModuleForeach f ms
          (rest.1, m :: rest.2)

def disableModule (m : Module) : Nat × Module := (0, { m with disabled := true })

def moduleEnableByName (moduleName : Name) : List Module → Nat × List Module
  | [] => (1, [])
  | m :: ms =>
      let rest := moduleEnableByName moduleName ms
      if m.shadowed then (rest.1, m :: rest.2)
      else if !m.disabled then (rest.1, m :: rest.2)
      else if m.name = moduleName then (0, { m with disabled := false } :: rest.2)
      else (rest.1, m :: rest.2)

/-- The loop of `lotto_module_enable_only` over the rest of the list. -/
def enableLoop (list : List Char) (modules : List Module) : Except Fault (Nat × List Module) := do
  let name := list.takeWhile (· ≠ ',')
  check (0 < name.length && name.length ≤ maxModuleNameLength) .moduleName
  let found := moduleEnableByName name modules
  if found.1 ≠ 0 then .ok (1, found.2)
  else
    match _separator : list.dropWhile (· ≠ ',') with
    | [] => .ok (0, found.2)
    | _ :: rest => enableLoop rest found.2
termination_by list.length
decreasing_by exact length_rest_lt _separator

def lottoModuleEnableOnly (moduleList : Option (List Char)) (modules : List Module) :
    Except Fault (Nat × List Module) :=
  match moduleList with
  | none => .ok (0, modules)
  | some list => enableLoop list (lottoModuleForeach disableModule modules).2

end Operations

section Meaning

def Known (modules : List Module) (name : Name) : Prop :=
  ∃ m ∈ modules, m.shadowed = false ∧ m.name = name

instance (modules : List Module) (name : Name) : Decidable (Known modules name) :=
  inferInstanceAs (Decidable (∃ m ∈ modules, _))

/-- A module of which only the names in `kept` are enabled. Shadowed modules stay as they are. -/
def Module.restrict (kept : List Name) (m : Module) : Module :=
  if m.shadowed then m else { m with disabled := !kept.contains m.name }

end Meaning

variable {modules : List Module} {kept names : List Name} {name : Name}

section Names

theorem disable_all (modules : List Module) :
    lottoModuleForeach disableModule modules = (0, modules.map (Module.restrict [])) := by
  induction modules with
  | nil => rfl
  | cons m ms ih =>
      obtain ⟨name, shadowed, disabled⟩ := m
      cases shadowed <;> cases disabled <;>
        simp [lottoModuleForeach, disableModule, Module.restrict, ih]

theorem known_cons (m : Module) (ms : List Module) (name : Name) :
    Known (m :: ms) name ↔ (m.shadowed = false ∧ m.name = name) ∨ Known ms name := by
  simp [Known]

theorem enableByName_restrict (modules : List Module) (new : name ∉ kept) :
    moduleEnableByName name (modules.map (Module.restrict kept)) =
      (if Known modules name then 0 else 1, modules.map (Module.restrict (kept ++ [name]))) ∧
    (¬Known modules name →
      modules.map (Module.restrict (kept ++ [name])) = modules.map (Module.restrict kept)) := by
  induction modules with
  | nil => exact ⟨by simp [moduleEnableByName, Known], fun _ => rfl⟩
  | cons m ms ih =>
      obtain ⟨found, same⟩ := ih
      rw [List.map_cons, moduleEnableByName, found]
      cases shadowed : m.shadowed with
      | true =>
          have unchanged (names : List Name) : m.restrict names = m := by
            rw [Module.restrict, if_pos shadowed]
          have only : Known (m :: ms) name ↔ Known ms name := by simp [known_cons, shadowed]
          refine ⟨?_, fun unknown => ?_⟩
          · simp only [unchanged, shadowed, if_true, only, List.map_cons]
          · rw [List.map_cons, unchanged, unchanged, same (by rwa [only] at unknown)]
      | false =>
          have changed (names : List Name) :
              m.restrict names = { m with disabled := !names.contains m.name } := by
            rw [Module.restrict, if_neg (by rw [shadowed]; exact Bool.false_ne_true)]
          by_cases this_ : m.name = name
          · have known : Known (m :: ms) name := (known_cons _ _ _).mpr (.inl ⟨shadowed, this_⟩)
            simp [changed, shadowed, this_, new, known]
          · have only : Known (m :: ms) name ↔ Known ms name := by simp [known_cons, this_]
            have kept_iff : m.name ∈ kept ++ [name] ↔ m.name ∈ kept := by simp [this_]
            refine ⟨?_, fun unknown => ?_⟩
            · by_cases enabled : m.name ∈ kept <;>
                simp [changed, shadowed, this_, only, enabled]
            · rw [List.map_cons, same (by rwa [only] at unknown), changed, changed]
              simp only [List.contains_eq_mem, kept_iff]

def enableNames : List Name → List Module → Except Fault (Nat × List Module)
  | [], modules => .ok (0, modules)
  | name :: names, modules => do
      check (0 < name.length && name.length ≤ maxModuleNameLength) .moduleName
      let found := moduleEnableByName name modules
      if found.1 ≠ 0 then .ok (1, found.2) else enableNames names found.2

theorem enableLoop_eq (list : List Char) (modules : List Module) :
    enableLoop list modules = enableNames (list.splitOn ',') modules := by
  have fields : ∃ names, list.splitOn ',' = list.takeWhile (· ≠ ',') :: names := by
    cases found : list.dropWhile (· ≠ ',') with
    | nil => exact ⟨_, splitOn_last found⟩
    | cons c rest => exact ⟨_, splitOn_next found⟩
  rw [enableLoop]
  dsimp only
  split
  · rename_i failed
    obtain ⟨names, fields⟩ := fields
    rw [fields, enableNames]
    dsimp only
    rw [if_pos failed]
  · rename_i succeeded
    split
    · rename_i missing
      rw [splitOn_last missing, enableNames]
      dsimp only
      rw [if_neg succeeded, enableNames]
    · rename_i rest found
      rw [splitOn_next found, enableNames]
      dsimp only
      rw [if_neg succeeded, enableLoop_eq rest]
termination_by list.length
decreasing_by exact length_rest_lt (by assumption)

theorem enableNames_restrict (modules : List Module)
    (named : ∀ name ∈ names, name ≠ [] ∧ name.length ≤ maxModuleNameLength)
    (distinct : (kept ++ names).Nodup) :
    enableNames names (modules.map (Module.restrict kept)) =
      .ok (if ∀ name ∈ names, Known modules name then 0 else 1, modules.map
        (Module.restrict (kept ++ names.takeWhile fun name => decide (Known modules name)))) := by
  induction names generalizing kept with
  | nil => simp [enableNames]
  | cons name names ih =>
      have new : name ∉ kept := by
        intro member
        exact (List.nodup_append.mp distinct).2.2 name member name List.mem_cons_self rfl
      obtain ⟨found, same⟩ := enableByName_restrict modules new
      obtain ⟨nonempty, short⟩ := named name List.mem_cons_self
      have length : (0 < name.length && name.length ≤ maxModuleNameLength) = true := by
        simp [List.length_pos_iff.mpr nonempty, short]
      rw [enableNames, length, check_true, ok_bind, found]
      by_cases known : Known modules name
      · have later : (kept ++ [name] ++ names).Nodup := by
          rwa [List.append_assoc, List.singleton_append]
        have rest := ih (fun n member => named n (List.mem_cons_of_mem _ member)) later
        simp only [known, if_true, ne_eq, not_true_eq_false, if_false, rest]
        simp [known]
      · simp only [known, if_false, ne_eq, Nat.one_ne_zero, not_false_eq_true, if_true, same known]
        simp [known]

end Names

theorem long_name_stops {list : List Char} (modules : List Module)
    (long : maxModuleNameLength < (list.takeWhile (· ≠ ',')).length) :
    enableLoop list modules = .error .moduleName := by
  have refused : (0 < (list.takeWhile (· ≠ ',')).length &&
      (list.takeWhile (· ≠ ',')).length ≤ maxModuleNameLength : Bool) = false := by
    rw [decide_eq_false (Nat.not_le.mpr long), Bool.and_false]
  rw [enableLoop]
  dsimp only
  rw [refused]
  rfl

/-- With a list of names that are not repeated, `lotto_module_enable_only` succeeds when all are known,
and enables the modules named before the first unknown one. -/
theorem enable_only_listed (modules : List Module) (list : List Char)
    (named : ∀ name ∈ list.splitOn ',', name ≠ [] ∧ name.length ≤ maxModuleNameLength)
    (distinct : (list.splitOn ',').Nodup) :
    ∃ result after, lottoModuleEnableOnly (some list) modules = .ok (result, after) ∧
      (result = 0 ↔ ∀ name ∈ list.splitOn ',', Known modules name) ∧
      (result = 0 → after = modules.map (Module.restrict (list.splitOn ','))) ∧
      (result ≠ 0 → after = modules.map (Module.restrict
        ((list.splitOn ',').takeWhile fun name => decide (Known modules name)))) := by
  have whole : ([] ++ list.splitOn ',').Nodup := distinct
  have done := enableNames_restrict modules named whole
  rw [List.nil_append, ← enableLoop_eq] at done
  refine ⟨_, _, by rw [lottoModuleEnableOnly, disable_all]; exact done, ?_, ?_, fun _ => rfl⟩
  · split <;> simp_all
  · intro success
    have known : ∀ name ∈ list.splitOn ',', Known modules name := by
      by_contra unknown
      rw [if_neg unknown] at success
      exact Nat.one_ne_zero success
    rw [List.takeWhile_eq_self_iff.mpr fun name member => decide_eq_true (known name member)]

theorem two_of_three_enabled :
    ∃ result after, lottoModuleEnableOnly (some ['a', ',', 'b'])
        [⟨['a'], false, false⟩, ⟨['b'], false, true⟩, ⟨['c'], false, false⟩] = .ok (result, after) ∧
      (result = 0 ↔ ∀ name ∈ ['a', ',', 'b'].splitOn ',',
        Known [⟨['a'], false, false⟩, ⟨['b'], false, true⟩, ⟨['c'], false, false⟩] name) ∧
      (result = 0 → after = [⟨['a'], false, false⟩, ⟨['b'], false, true⟩, ⟨['c'], false, false⟩].map
        (Module.restrict (['a', ',', 'b'].splitOn ','))) ∧
      (result ≠ 0 → after = [⟨['a'], false, false⟩, ⟨['b'], false, true⟩, ⟨['c'], false, false⟩].map
        (Module.restrict ((['a', ',', 'b'].splitOn ',').takeWhile fun name => decide
          (Known [⟨['a'], false, false⟩, ⟨['b'], false, true⟩, ⟨['c'], false, false⟩] name)))) :=
  enable_only_listed _ _ (by decide) (by decide)

/-- An unknown name leaves only the names before it enabled, and a name that no file can have stops
the program. -/
theorem error_keeps_nothing :
    lottoModuleEnableOnly (some ['a', ',', 'x']) [⟨['a'], false, true⟩, ⟨['b'], false, false⟩] =
        .ok (1, [⟨['a'], false, false⟩, ⟨['b'], false, true⟩]) ∧
      lottoModuleEnableOnly (some (List.replicate 1024 'a')) [⟨['b'], false, false⟩] =
        .error .moduleName := by
  constructor
  · rw [lottoModuleEnableOnly, enableLoop_eq]
    rfl
  · refine long_name_stops _ ?_
    rw [List.takeWhile_eq_self_iff.mpr fun c member => ?_, List.length_replicate]
    · exact Nat.lt_succ_self _
    · rw [List.eq_of_mem_replicate member]
      rfl

end Lotto.Modules
