import Mathlib.Logic.Function.Basic
import Mathlib.Data.List.Nodup
import Lotto.Library.Fields
import Lotto.Base

namespace Lotto.ModuleSwitches

open Library.FaultRun Library.Fields

abbrev Name := List Char

structure SwitchableModule where
  name : Name
  defaultEnabled : Bool
  deriving DecidableEq, Repr

structure Flags where
  enable : List Char
  disable : List Char
  deriving DecidableEq, Repr

def allModules : Name := ['a', 'l', 'l']

section Operations

def normalizeModuleName (src : Name) (n : Nat) : Name :=
  (src.take (n - 1)).map fun c => if c = '_' then '-' else c

def moduleNameMatches (a b : Name) : Bool := normalizeModuleName a 128 == normalizeModuleName b 128

/-- `_find_runtime_switchable_module`. -/
def findModule (modules : List SwitchableModule) (name : Name) : Option SwitchableModule :=
  modules.find? fun m => moduleNameMatches m.name name

def forEachToken {σ : Type} (fn : Name → σ → Nat × σ) : List Name → σ → Nat × σ
  | [], s => (0, s)
  | tok :: toks, s =>
      let r := fn tok s
      if r.1 ≠ 0 then r else forEachToken fn toks r.2

def csvForEach {σ : Type} (fn : Name → σ → Nat × σ) (csv : List Char) (s : σ) : Nat × σ :=
  forEachToken fn (tokens ',' csv) s

def csvAppend (csv : List Char) (tok : Name) : List Char :=
  if tok = [] then csv
  else if csv.length = 0 then tok
  else csv ++ ',' :: tok

def removeModuleToken (module : Name) (tok : Name) (csv : List Char) : Nat × List Char :=
  if moduleNameMatches tok module then (0, csv) else (0, csvAppend csv tok)

def removeModuleFromFlag (csv : List Char) (module : Name) : List Char :=
  (csvForEach (removeModuleToken module) csv []).2

def appendModuleToFlag (csv : List Char) (module : Name) : List Char :=
  csvAppend (csvAppend [] csv) module

def setModuleFlag (flags : Flags) (module : Name) (enabled : Bool) : Flags :=
  let flags := { flags with enable := removeModuleFromFlag flags.enable module }
  let flags := { flags with disable := removeModuleFromFlag flags.disable module }
  if enabled then { flags with enable := appendModuleToFlag flags.enable module }
  else { flags with disable := appendModuleToFlag flags.disable module }

def updateModuleToken (modules : List SwitchableModule) (enabled : Bool) (tok : Name) (flags : Flags) :
    Nat × Flags :=
  if !enabled && moduleNameMatches tok allModules then
    (0, modules.foldl (fun flags m => setModuleFlag flags m.name false) flags)
  else
    match findModule modules tok with
    | none => (1, flags)
    | some m => (0, setModuleFlag flags m.name enabled)

/-- `module_enable_flags_update`, where `enabled` says whether the flag is `--enable`. -/
def moduleEnableFlagsUpdate (modules : List SwitchableModule) (flags : Flags) (enabled : Bool)
    (arg : List Char) : Nat × Flags :=
  csvForEach (updateModuleToken modules enabled) arg flags

def matchModuleToken (modules : List SwitchableModule) (module : SwitchableModule) (tok : Name)
    (found : Bool) : Nat × Bool :=
  if findModule modules tok = some module then (0, true) else (0, found)

def moduleCsvContains (modules : List SwitchableModule) (csv : List Char)
    (module : SwitchableModule) : Bool :=
  (csvForEach (matchModuleToken modules module) csv false).2

/-- `module_runtime_switchable_enabled`: the answer, or `none` for an unknown module. -/
def moduleRuntimeSwitchableEnabled (modules : List SwitchableModule) (name : Name)
    (flags : Option Flags) : Option Bool := do
  let module ← findModule modules name
  match flags with
  | none => some module.defaultEnabled
  | some flags =>
      let value := if moduleCsvContains modules flags.enable module then true else module.defaultEnabled
      some (if moduleCsvContains modules flags.disable module then false else value)

def handleModuleToken (modules : List SwitchableModule) (enabled apply : Bool) (tok : Name)
    (states : Name → Bool) : Nat × (Name → Bool) :=
  match findModule modules tok with
  | none => if !enabled && moduleNameMatches tok allModules then (0, states) else (1, states)
  | some module =>
      if apply then (0, Function.update states module.name enabled) else (0, states)

def handleModuleCsv (modules : List SwitchableModule) (csv : List Char) (enabled apply : Bool)
    (states : Name → Bool) : Nat × (Name → Bool) :=
  csvForEach (handleModuleToken modules enabled apply) csv states

def applyModuleEnableFlags (modules : List SwitchableModule) (flags : Flags) (states : Name → Bool) :
    Nat × (Name → Bool) :=
  let enabled := handleModuleCsv modules flags.enable true true states
  if enabled.1 ≠ 0 then (1, enabled.2)
  else handleModuleCsv modules flags.disable false true enabled.2

def runUpdates (modules : List SwitchableModule) : List (Bool × List Char) → Flags → Option Flags
  | [], flags => some flags
  | (enabled, arg) :: updates, flags =>
      let r := moduleEnableFlagsUpdate modules flags enabled arg
      if r.1 ≠ 0 then none else runUpdates modules updates r.2

end Operations

section Meaning

structure Registry where
  modules : List SwitchableModule
  named : ∀ m ∈ modules, m.name ≠ [] ∧ m.name.length < 128 ∧ ',' ∉ m.name ∧ m.name ≠ allModules
  distinct : (modules.map fun m => normalizeModuleName m.name 128).Nodup

def mentionsOf (modules : List SwitchableModule) (enabled : Bool) (tok : Name) : List (Name × Bool) :=
  if !enabled && moduleNameMatches tok allModules then modules.map fun m => (m.name, false)
  else (findModule modules tok).toList.map fun m => (m.name, enabled)

def mentions (modules : List SwitchableModule) (updates : List (Bool × List Char)) :
    List (Name × Bool) :=
  updates.flatMap fun update => (tokens ',' update.2).flatMap (mentionsOf modules update.1)

def lastMention (mentioned : List (Name × Bool)) (name : Name) : Option Bool :=
  mentioned.reverse.lookup name

def occurrences (modules : List SwitchableModule) (csv : List Char) (module : SwitchableModule) : Nat :=
  (tokens ',' csv).countP fun tok => findModule modules tok == some module

/-- The states that the modules have before flags are applied. -/
def defaultStates (modules : List SwitchableModule) (name : Name) : Bool :=
  ((findModule modules name).map SwitchableModule.defaultEnabled).getD false

end Meaning

variable {reg : Registry} {modules : List SwitchableModule} {m : SwitchableModule} {flags : Flags}
  {name tok : Name} {names enabledNames disabledNames : List Name} {mentioned : List (Name × Bool)}

section Names

def Registry.Names (reg : Registry) (names : List Name) : Prop :=
  ∀ name ∈ names, ∃ m ∈ reg.modules, m.name = name

theorem Registry.Names.proper (registered : reg.Names names) : Proper ',' names := by
  intro name member
  obtain ⟨m, known, rfl⟩ := registered name member
  obtain ⟨nonempty, -, comma, -⟩ := reg.named m known
  exact ⟨nonempty, comma⟩

theorem Registry.same_module {a b : SwitchableModule} (first : a ∈ reg.modules)
    (second : b ∈ reg.modules) (matched : moduleNameMatches a.name b.name = true) : a = b :=
  List.inj_on_of_nodup_map reg.distinct first second (beq_iff_eq.mp matched)

theorem Registry.find_eq (known : m ∈ reg.modules) : findModule reg.modules m.name = some m := by
  have found : (findModule reg.modules m.name).isSome := by
    rw [findModule, List.find?_isSome]
    exact ⟨m, known, beq_self_eq_true _⟩
  obtain ⟨other, found⟩ := Option.isSome_iff_exists.mp found
  have matched := List.find?_some found
  rw [found, reg.same_module (List.mem_of_find?_eq_some found) known matched]

theorem Registry.matches_iff {a b : Name} (first : reg.Names [a]) (second : reg.Names [b]) :
    moduleNameMatches a b = decide (a = b) := by
  obtain ⟨m, known, rfl⟩ := first a List.mem_cons_self
  obtain ⟨m', known', rfl⟩ := second b List.mem_cons_self
  rw [Bool.eq_iff_iff, decide_eq_true_iff]
  constructor
  · intro matched
    rw [reg.same_module known known' matched]
  · intro same
    rw [same]
    exact beq_self_eq_true _

theorem Registry.Names.one (registered : reg.Names names) (member : name ∈ names) : reg.Names [name] :=
  fun _ same => by
    rw [List.mem_singleton] at same
    rw [same]
    exact registered name member

end Names

section Lists

theorem forEachToken_total {σ : Type} {fn : Name → σ → Nat × σ} (total : ∀ tok s, (fn tok s).1 = 0)
    (toks : List Name) (s : σ) :
    forEachToken fn toks s = (0, toks.foldl (fun s tok => (fn tok s).2) s) := by
  induction toks generalizing s with
  | nil => rfl
  | cons tok toks ih =>
      rw [forEachToken, if_neg (not_not.mpr (total tok s)), ih]
      rfl

theorem csvAppend_joined (proper : Proper ',' names) (nonempty : tok ≠ []) :
    csvAppend ([','].intercalate names) tok = [','].intercalate (names ++ [tok]) := by
  rw [csvAppend, if_neg nonempty]
  by_cases none : names = []
  · rw [none, List.nil_append, List.intercalate_singleton]
    rfl
  · have filled : ([','].intercalate names).length ≠ 0 := fun zero =>
      none ((intercalate_eq_nil proper).mp (List.length_eq_zero_iff.mp zero))
    rw [if_neg filled, intercalate_concat _ _ _ none]

theorem removeTokens_joined {kept : List Name} (registered : reg.Names (kept ++ names))
    (module : reg.Names [name]) :
    names.foldl (fun csv tok => (removeModuleToken name tok csv).2) ([','].intercalate kept) =
      [','].intercalate (kept ++ names.filter (· ≠ name)) := by
  induction names generalizing kept with
  | nil => simp
  | cons tok names ih =>
      have known := registered.one (List.mem_append_right kept List.mem_cons_self)
      have proper := registered.proper
      rw [List.foldl_cons, removeModuleToken, reg.matches_iff known module]
      by_cases same : tok = name
      · rw [List.filter_cons_of_neg (by simpa using same), decide_eq_true same, if_pos rfl]
        refine ih fun n member => registered n ?_
        rw [List.mem_append] at member ⊢
        exact member.imp_right (List.mem_cons_of_mem _)
      · rw [List.filter_cons_of_pos (by simpa using same), decide_eq_false same,
          if_neg Bool.false_ne_true, csvAppend_joined
            (fun field member => proper field (List.mem_append_left _ member))
            (proper tok (List.mem_append_right _ List.mem_cons_self)).1,
          ih (by rwa [List.append_assoc, List.singleton_append]), List.append_assoc,
          List.singleton_append]

theorem removeModuleFromFlag_joined (registered : reg.Names names) (module : reg.Names [name]) :
    removeModuleFromFlag ([','].intercalate names) name =
      [','].intercalate (names.filter (· ≠ name)) := by
  have total (tok : Name) (csv : List Char) : (removeModuleToken name tok csv).1 = 0 := by
    rw [removeModuleToken]
    split <;> rfl
  have whole : reg.Names ([] ++ names) := registered
  have removed := removeTokens_joined whole module
  rw [removeModuleFromFlag, csvForEach, tokens_intercalate registered.proper,
    forEachToken_total total]
  exact removed

theorem appendModuleToFlag_joined (registered : reg.Names names) (module : reg.Names [name]) :
    appendModuleToFlag ([','].intercalate names) name = [','].intercalate (names ++ [name]) := by
  have copied : csvAppend [] ([','].intercalate names) = [','].intercalate names := by
    rw [csvAppend]
    split
    · rename_i empty
      rw [empty]
    · rfl
  rw [appendModuleToFlag, copied,
    csvAppend_joined registered.proper (module.proper name List.mem_cons_self).1]

end Lists

section Mentions

theorem lastMention_concat (mentioned : List (Name × Bool)) (name other : Name) (enabled : Bool) :
    lastMention (mentioned ++ [(name, enabled)]) other =
      if other = name then some enabled else lastMention mentioned other := by
  rw [lastMention, List.reverse_append, List.reverse_singleton, List.singleton_append,
    List.lookup_cons]
  by_cases same : other = name
  · rw [if_pos same, same, beq_self_eq_true]
  · rw [if_neg same, beq_eq_false_iff_ne.mpr same, lastMention]

structure Switched (reg : Registry) (flags : Flags) (mentioned : List (Name × Bool))
    (enabledNames disabledNames : List Name) : Prop where
  enable : flags.enable = [','].intercalate enabledNames
  disable : flags.disable = [','].intercalate disabledNames
  enableNames : reg.Names enabledNames
  disableNames : reg.Names disabledNames
  enableOnce : enabledNames.Nodup
  disableOnce : disabledNames.Nodup
  enableLast : ∀ name, name ∈ enabledNames ↔ lastMention mentioned name = some true
  disableLast : ∀ name, name ∈ disabledNames ↔ lastMention mentioned name = some false

def SwitchedBy (reg : Registry) (flags : Flags) (mentioned : List (Name × Bool)) : Prop :=
  ∃ enabledNames disabledNames, Switched reg flags mentioned enabledNames disabledNames

theorem empty_switched (reg : Registry) : SwitchedBy reg ⟨[], []⟩ [] :=
  ⟨[], [], rfl, rfl, fun _ member => absurd member List.not_mem_nil,
    fun _ member => absurd member List.not_mem_nil, List.nodup_nil, List.nodup_nil,
    fun _ => by simp [lastMention], fun _ => by simp [lastMention]⟩

theorem SwitchedBy.set (switched : SwitchedBy reg flags mentioned) (module : reg.Names [name])
    (enabled : Bool) :
    SwitchedBy reg (setModuleFlag flags name enabled) (mentioned ++ [(name, enabled)]) := by
  obtain ⟨enabledNames, disabledNames, switched⟩ := switched
  obtain ⟨enable, disable, enableNames, disableNames, enableOnce, disableOnce, enableLast,
    disableLast⟩ := switched
  have kept (names : List Name) (registered : reg.Names names) : reg.Names (names.filter (· ≠ name)) :=
    fun n member => registered n (List.mem_filter.mp member).1
  have added (names : List Name) (registered : reg.Names names) :
      reg.Names (names.filter (· ≠ name) ++ [name]) := by
    intro n member
    obtain old | new := List.mem_append.mp member
    · exact kept names registered n old
    · exact module n new
  have once (names : List Name) (distinct : names.Nodup) :
      (names.filter (· ≠ name) ++ [name]).Nodup := by
    rw [List.nodup_append]
    refine ⟨distinct.filter _, List.nodup_singleton _, fun a old b new => ?_⟩
    rw [List.mem_singleton.mp new]
    exact of_decide_eq_true (List.mem_filter.mp old).2
  rw [setModuleFlag]
  simp only [enable, disable, removeModuleFromFlag_joined enableNames module,
    removeModuleFromFlag_joined disableNames module,
    appendModuleToFlag_joined (kept _ enableNames) module,
    appendModuleToFlag_joined (kept _ disableNames) module]
  cases enabled with
  | true =>
      refine ⟨_, _, rfl, rfl, added _ enableNames, kept _ disableNames, once _ enableOnce,
        disableOnce.filter _, fun other => ?_, fun other => ?_⟩
      · by_cases same : other = name <;> simp [lastMention_concat, same, enableLast]
      · by_cases same : other = name <;> simp [lastMention_concat, same, disableLast]
  | false =>
      refine ⟨_, _, rfl, rfl, kept _ enableNames, added _ disableNames, enableOnce.filter _,
        once _ disableOnce, fun other => ?_, fun other => ?_⟩
      · by_cases same : other = name <;> simp [lastMention_concat, same, enableLast]
      · by_cases same : other = name <;> simp [lastMention_concat, same, disableLast]

theorem Registry.names_one (known : m ∈ reg.modules) : reg.Names [m.name] :=
  fun _ same => ⟨m, known, (List.mem_singleton.mp same).symm⟩

theorem SwitchedBy.disable_all (switched : SwitchedBy reg flags mentioned)
    (some_ : List SwitchableModule) (known : some_ ⊆ reg.modules) :
    SwitchedBy reg (some_.foldl (fun flags m => setModuleFlag flags m.name false) flags)
      (mentioned ++ some_.map fun m => (m.name, false)) := by
  induction some_ generalizing flags mentioned with
  | nil => simpa using switched
  | cons m some_ ih =>
      obtain ⟨first, known⟩ := List.cons_subset.mp known
      have next := ih (switched.set (reg.names_one first) false) known
      rwa [List.append_assoc, List.singleton_append] at next

theorem SwitchedBy.token {enabled : Bool} (switched : SwitchedBy reg flags mentioned)
    (done : (updateModuleToken reg.modules enabled tok flags).1 = 0) :
    SwitchedBy reg (updateModuleToken reg.modules enabled tok flags).2
      (mentioned ++ mentionsOf reg.modules enabled tok) := by
  rw [updateModuleToken] at done ⊢
  rw [mentionsOf]
  split
  · exact switched.disable_all reg.modules fun _ member => member
  · rename_i one
    rw [if_neg one] at done
    cases found : findModule reg.modules tok with
    | none =>
        rw [found] at done
        exact absurd done Nat.one_ne_zero
    | some m => exact switched.set (reg.names_one (List.mem_of_find?_eq_some found)) enabled

theorem SwitchedBy.tokens {enabled : Bool} (toks : List Name)
    (switched : SwitchedBy reg flags mentioned)
    (done : (forEachToken (updateModuleToken reg.modules enabled) toks flags).1 = 0) :
    SwitchedBy reg (forEachToken (updateModuleToken reg.modules enabled) toks flags).2
      (mentioned ++ toks.flatMap (mentionsOf reg.modules enabled)) := by
  induction toks generalizing flags mentioned with
  | nil => simpa [forEachToken] using switched
  | cons tok toks ih =>
      rw [forEachToken] at done ⊢
      by_cases ok : (updateModuleToken reg.modules enabled tok flags).1 = 0
      · simp only [ok, ne_eq, not_true_eq_false, if_false] at done ⊢
        rw [List.flatMap_cons, ← List.append_assoc]
        exact ih (switched.token ok) done
      · simp only [ne_eq, ok, not_false_eq_true, if_true] at done

theorem SwitchedBy.run {flags' : Flags} (updates : List (Bool × List Char))
    (switched : SwitchedBy reg flags mentioned)
    (done : runUpdates reg.modules updates flags = some flags') :
    SwitchedBy reg flags' (mentioned ++ mentions reg.modules updates) := by
  induction updates generalizing flags mentioned with
  | nil =>
      cases done
      simpa [mentions] using switched
  | cons update updates ih =>
      obtain ⟨enabled, arg⟩ := update
      rw [runUpdates] at done
      by_cases ok : (moduleEnableFlagsUpdate reg.modules flags enabled arg).1 = 0
      · simp only [ok, ne_eq, not_true_eq_false, if_false] at done
        have later := ih (switched.tokens _ ok) done
        rwa [List.append_assoc] at later
      · simp only [ne_eq, ok, not_false_eq_true, if_true] at done
        cases done

end Mentions

section Readers

theorem occurrences_joined (registered : reg.Names names) (once : names.Nodup)
    (known : m ∈ reg.modules) :
    occurrences reg.modules ([','].intercalate names) m = if m.name ∈ names then 1 else 0 := by
  have counts : occurrences reg.modules ([','].intercalate names) m = names.count m.name := by
    rw [occurrences, tokens_intercalate registered.proper, List.count]
    refine List.countP_congr fun n member => ?_
    obtain ⟨other, known', rfl⟩ := registered n member
    rw [reg.find_eq known', beq_iff_eq, beq_iff_eq, Option.some_inj]
    constructor
    · intro same
      rw [same]
    · intro same
      refine reg.same_module known' known ?_
      rw [same]
      exact beq_self_eq_true _
  rw [counts]
  split
  · rename_i member
    exact List.count_eq_one_of_mem once member
  · rename_i absent
    exact List.count_eq_zero_of_not_mem absent

theorem match_tokens (registered : reg.Names names) (known : m ∈ reg.modules) (found : Bool) :
    forEachToken (matchModuleToken reg.modules m) names found =
      (0, found || decide (m.name ∈ names)) := by
  induction names generalizing found with
  | nil => simp [forEachToken]
  | cons n names ih =>
      obtain ⟨other, known', rfl⟩ := registered n List.mem_cons_self
      have rest := ih fun n member => registered n (List.mem_cons_of_mem _ member)
      rw [forEachToken, matchModuleToken, reg.find_eq known']
      by_cases same : other = m
      · subst same
        simp [rest]
      · have differ : m.name ≠ other.name := by
          intro equal
          refine same (reg.same_module known' known ?_)
          rw [equal]
          exact beq_self_eq_true _
        simp [same, rest, differ]

theorem contains_joined (registered : reg.Names names) (known : m ∈ reg.modules) :
    moduleCsvContains reg.modules ([','].intercalate names) m = decide (m.name ∈ names) := by
  rw [moduleCsvContains, csvForEach, tokens_intercalate registered.proper,
    match_tokens registered known, Bool.false_or]

theorem handle_joined (registered : reg.Names names) (enabled : Bool) (states : Name → Bool) :
    handleModuleCsv reg.modules ([','].intercalate names) enabled true states =
      (0, fun name => if name ∈ names then enabled else states name) := by
  rw [handleModuleCsv, csvForEach, tokens_intercalate registered.proper]
  induction names generalizing states with
  | nil => simp [forEachToken]
  | cons n names ih =>
      obtain ⟨m, known, rfl⟩ := registered n List.mem_cons_self
      have rest := ih fun n member => registered n (List.mem_cons_of_mem _ member)
      rw [forEachToken, handleModuleToken, reg.find_eq known]
      simp only [if_true, ne_eq, not_true_eq_false, if_false, rest]
      congr 1
      funext name
      by_cases here : name = m.name
      · simp [here]
      · simp [here]

/-- After a row of successful updates of empty flags each module stands at most once in at most one of
the lists, in the one of its last mention, and asking for its state gives what applying the flags to
the defaults establishes. -/
theorem last_mention_wins (reg : Registry) (updates : List (Bool × List Char)) (flags : Flags)
    (done : runUpdates reg.modules updates ⟨[], []⟩ = some flags) :
    (∀ m ∈ reg.modules,
      occurrences reg.modules flags.enable m =
          (if lastMention (mentions reg.modules updates) m.name = some true then 1 else 0) ∧
        occurrences reg.modules flags.disable m =
          (if lastMention (mentions reg.modules updates) m.name = some false then 1 else 0)) ∧
      ∃ states, applyModuleEnableFlags reg.modules flags (defaultStates reg.modules) = (0, states) ∧
        ∀ name, moduleRuntimeSwitchableEnabled reg.modules name (some flags) =
          (findModule reg.modules name).map fun m => states m.name := by
  obtain ⟨enabledNames, disabledNames, switched⟩ := (empty_switched reg).run updates done
  rw [List.nil_append] at switched
  obtain ⟨enable, disable, enableNames, disableNames, enableOnce, disableOnce, enableLast,
    disableLast⟩ := switched
  constructor
  · intro m known
    rw [enable, disable, occurrences_joined enableNames enableOnce known,
      occurrences_joined disableNames disableOnce known]
    simp only [enableLast, disableLast, and_self]
  · have applied : applyModuleEnableFlags reg.modules flags (defaultStates reg.modules) =
        (0, fun name => if name ∈ disabledNames then false
          else if name ∈ enabledNames then true else defaultStates reg.modules name) := by
      rw [applyModuleEnableFlags, enable, disable, handle_joined enableNames]
      simp only [ne_eq, not_true_eq_false, if_false, handle_joined disableNames]
    refine ⟨_, applied, fun name => ?_⟩
    rw [moduleRuntimeSwitchableEnabled]
    cases found : findModule reg.modules name with
    | none => rfl
    | some m =>
        have known := List.mem_of_find?_eq_some found
        have default_ : defaultStates reg.modules m.name = m.defaultEnabled := by
          rw [defaultStates, reg.find_eq known]
          rfl
        simp only [Option.bind_eq_bind, Option.bind_some, enable, disable,
          contains_joined enableNames known, contains_joined disableNames known, Option.map_some,
          decide_eq_true_eq, default_]

theorem one_module_enabled_last :
    (∀ m ∈ [(⟨['a', '_', 'b'], false⟩ : SwitchableModule)],
      occurrences [⟨['a', '_', 'b'], false⟩] ['a', '_', 'b'] m =
          (if lastMention (mentions [⟨['a', '_', 'b'], false⟩]
            [(false, ['a', 'l', 'l']), (true, ['a', '-', 'b'])]) m.name = some true then 1 else 0) ∧
        occurrences [⟨['a', '_', 'b'], false⟩] [] m =
          (if lastMention (mentions [⟨['a', '_', 'b'], false⟩]
            [(false, ['a', 'l', 'l']), (true, ['a', '-', 'b'])]) m.name = some false then 1 else 0)) ∧
      ∃ states, applyModuleEnableFlags [⟨['a', '_', 'b'], false⟩] ⟨['a', '_', 'b'], []⟩
          (defaultStates [⟨['a', '_', 'b'], false⟩]) = (0, states) ∧
        ∀ name, moduleRuntimeSwitchableEnabled [⟨['a', '_', 'b'], false⟩] name
            (some ⟨['a', '_', 'b'], []⟩) =
          (findModule [⟨['a', '_', 'b'], false⟩] name).map fun m => states m.name :=
  last_mention_wins ⟨[⟨['a', '_', 'b'], false⟩], by decide, by decide⟩
    [(false, ['a', 'l', 'l']), (true, ['a', '-', 'b'])] ⟨['a', '_', 'b'], []⟩ rfl

end Readers

end Lotto.ModuleSwitches
