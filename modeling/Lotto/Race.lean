import Lotto.Library.ExactRun
import Lotto.Library.KeyMap
import Lotto.Base

namespace Lotto.Race

open Library.ExactRun Library.FaultRun Library.KeyMap

inductive EventType where
  | maRead | maAread | maWrite | maAwrite | maCmpxchg | maCmpxchgWeak | maXchg | maRmw | maFence
  | taskInit | taskFini | taskCreate | mutexRelease | other
  deriving DecidableEq, Repr

/-- The fields of `capture_point` that the handlers read, with the result of `memaccess_addr`.
`after` tells `CHAIN_INGRESS_AFTER` from the other chains. -/
structure RaceCapture where
  after : Bool
  typeId : EventType
  id : TaskId
  vid : TaskId
  pc : UInt64
  addr : UInt64
  deriving DecidableEq, Repr

structure OtEntry where
  id : TaskId
  isVid : Bool
  addr : UInt64
  pc : UInt64
  readonly : Bool
  atomic : Bool
  deriving DecidableEq, Repr

structure OtSet where
  deregAt : Nat
  entries : List OtEntry
  deriving DecidableEq, Repr

/-- `race_config_t`; what is done about a race is left out. `keepsFreed` tells whether the allocator
leaves an item that was freed as it was until the next allocation. -/
structure RaceConfig where
  enabled : Bool
  ignoreWriteWrite : Bool
  keepsFreed : Bool
  deriving DecidableEq, Repr

structure RaceLoc where
  id : TaskId
  pc : UInt64
  readonly : Bool
  deriving DecidableEq, Repr

structure RaceT where
  addr : UInt64
  loc1 : RaceLoc
  loc2 : RaceLoc
  deriving DecidableEq, Repr

def lazyDeregDelay : Nat := 100

def maxCapacity : Nat := 100

section Sets

def otLazyDereg (id : TaskId) (clk : Nat) (s : Map OtSet) : Map OtSet :=
  match s.lookup id with
  | none => s
  | some oset =>
      if oset.deregAt ≠ 0 then s else s.replace id { oset with deregAt := clk + lazyDeregDelay }

def otAdd (oset : OtSet) (e : OtEntry) : OtSet :=
  if oset.entries.length ≥ maxCapacity then oset else { oset with entries := oset.entries ++ [e] }

def expired (oset : OtSet) (clk : Nat) : Bool := decide (oset.deregAt ≠ 0) && decide (oset.deregAt ≤ clk)

/-- `ot_cleanup` from an item on. It reads the `next` of an item that `tidmap_deregister` has freed. -/
def otCleanup (keepsFreed : Bool) (clk : Nat) :
    List (Sigma fun _ : UInt64 => OtSet) → Map OtSet → Except Fault (Map OtSet)
  | [], s => .ok s
  | ⟨key, oset⟩ :: next, s =>
      if expired oset clk then do
        check keepsFreed .freedItem
        otCleanup keepsFreed clk next (s.erase key)
      else otCleanup keepsFreed clk next s

/-- The filters of `ot_conflict` between an entry of another set and the new one. -/
def conflicts (config : RaceConfig) (e ee : OtEntry) : Bool :=
  ee.addr == e.addr && ee.isVid == e.isVid && !(ee.atomic && e.atomic) &&
    !(config.ignoreWriteWrite && !ee.readonly && !e.readonly) && !(ee.readonly && e.readonly)

def OtEntry.loc (e : OtEntry) : RaceLoc := ⟨e.id, e.pc, e.readonly⟩

def otConflict (config : RaceConfig) (this : TaskId) (e : OtEntry) (clk : Nat) :
    List (Sigma fun _ : UInt64 => OtSet) → Map OtSet → Option RaceT × Map OtSet
  | [], s => (none, s)
  | ⟨key, oset⟩ :: next, s =>
      if this = key then otConflict config this e clk next s
      else if expired oset clk then otConflict config this e clk next (s.erase key)
      else
        match oset.entries.find? (conflicts config e) with
        | none => otConflict config this e clk next s
        | some ee => (some ⟨e.addr, e.loc, ee.loc⟩, s)

def otClear (oset : OtSet) : OtSet := { oset with entries := [] }

end Sets

section Handlers

def RaceCapture.task (cp : RaceCapture) : TaskId := if cp.vid ≠ noTask then cp.vid else cp.id

def RaceCapture.entry (cp : RaceCapture) : OtEntry where
  id := cp.task
  isVid := cp.vid != noTask
  addr := cp.addr
  pc := cp.pc
  readonly := cp.typeId == .maRead || cp.typeId == .maAread
  atomic := cp.typeId != .maRead && cp.typeId != .maWrite

def remembered : EventType → Bool
  | .maRead | .maAread | .maWrite => true
  | _ => false

def modifies : EventType → Bool
  | .maAwrite | .maCmpxchg | .maXchg | .maRmw => true
  | _ => false

def raceCheck (config : RaceConfig) (cp : RaceCapture) (clk : Nat) (s : Map OtSet) :
    Option RaceT × Map OtSet :=
  let (oset, s) := findOrInit ⟨0, []⟩ cp.task s
  if cp.after = false then
    if remembered cp.typeId then
      if cp.addr = 0 then (none, s)
      else
        let s := s.replace cp.task (otAdd oset cp.entry)
        otConflict config cp.task cp.entry clk s.entries s
    else if modifies cp.typeId then
      if cp.addr = 0 then (none, s) else otConflict config cp.task cp.entry clk s.entries s
    else (none, s)
  else if modifies cp.typeId || cp.typeId == .maFence then (none, s.replace cp.task (otClear oset))
  else (none, s)

def raceHandle (config : RaceConfig) (cp : RaceCapture) (clk : Nat) (s : Map OtSet) :
    Except Fault (Option RaceT × Map OtSet) := do
  check (cp.id != noTask) .captureNoTask
  if config.enabled = false then .ok (none, s)
  else if cp.typeId = .taskFini then .ok (none, otLazyDereg cp.task clk s)
  else if cp.typeId = .taskInit then .ok (none, s)
  else
    let (race, s) := raceCheck config cp clk s
    if race = none ∧ clk % lazyDeregDelay = 0 then do
      let s ← otCleanup config.keepsFreed clk s.entries s
      .ok (race, s)
    else .ok (race, s)

def raceResumeHandle (config : RaceConfig) (cp : RaceCapture) (s : Map OtSet) :
    Except Fault (Map OtSet) := do
  check (cp.id != noTask) .captureNoTask
  if config.enabled = false then .ok s
  else if cp.typeId = .taskCreate ∨ cp.typeId = .mutexRelease then
    match s.lookup cp.task with
    | none => .ok s
    | some oset => .ok (s.replace cp.task (otClear oset))
  else .ok s

end Handlers

section Runs

inductive RaceEvent where
  | capture (cp : RaceCapture) (clk : Nat)
  | resume (cp : RaceCapture)
  deriving DecidableEq, Repr

def step (config : RaceConfig) : RaceEvent → Map OtSet → Except Fault (Map OtSet)
  | .capture cp clk, s => do
      let r ← raceHandle config cp clk s
      .ok r.2
  | .resume cp, s => raceResumeHandle config cp s

def run (config : RaceConfig) : List RaceEvent → Map OtSet → Except Fault (Map OtSet)
  | [], s => .ok s
  | event :: events, s => do
      let s ← step config event s
      run config events s

def Clears (task : TaskId) : RaceEvent → Prop
  | .capture cp _ =>
      cp.task = task ∧ cp.after = true ∧
        (modifies cp.typeId = true ∨ cp.typeId = .maCmpxchgWeak ∨ cp.typeId = .maFence)
  | .resume cp => cp.task = task ∧ (cp.typeId = .taskCreate ∨ cp.typeId = .mutexRelease)

/-- No weak compare-exchange is done by a task with remembered accesses. -/
def Forgets (s : Map OtSet) : RaceEvent → Prop
  | .capture cp _ => cp.after = true → cp.typeId = .maCmpxchgWeak →
      ∀ oset, s.lookup cp.task = some oset → oset.entries = []
  | .resume _ => True

/-- The entry is that of an earlier access, since which its task has performed no clearing operation. -/
def Explained (past : List RaceEvent) (ee : OtEntry) : Prop :=
  ∃ before access clk since, past = before ++ .capture access clk :: since ∧
    access.after = false ∧ remembered access.typeId = true ∧ access.addr ≠ 0 ∧
    access.entry = ee ∧ ∀ event ∈ since, ¬Clears ee.id event

/-- Every entry of a set is explained and one of the task of the set. -/
def Known (past : List RaceEvent) (key : UInt64) (oset : OtSet) : Prop :=
  ∀ ee ∈ oset.entries, ee.id = key ∧ Explained past ee

/-- The race is one between the access that is captured and an earlier one of another task. -/
def Sound (past : List RaceEvent) (cp : RaceCapture) (r : RaceT) : Prop :=
  ∃ before access clk since, past = before ++ .capture access clk :: since ∧
    access.after = false ∧ remembered access.typeId = true ∧
    cp.after = false ∧ (remembered cp.typeId = true ∨ modifies cp.typeId = true) ∧
    r = ⟨cp.addr, cp.entry.loc, access.entry.loc⟩ ∧ r.addr ≠ 0 ∧ access.addr = cp.addr ∧
    access.task ≠ cp.task ∧ (access.entry.readonly = false ∨ cp.entry.readonly = false) ∧
    (access.entry.atomic = false ∨ cp.entry.atomic = false) ∧
    access.entry.isVid = cp.entry.isVid ∧ ∀ event ∈ since, ¬Clears access.task event

end Runs

variable {config : RaceConfig} {cp : RaceCapture} {event : RaceEvent} {past events : List RaceEvent}
  {s s' : Map OtSet} {key task : UInt64} {oset : OtSet} {e ee : OtEntry} {clk : Nat} {r : RaceT}

section History

theorem Explained.later (explained : Explained past ee) (keeps : ¬Clears ee.id event) :
    Explained (past ++ [event]) ee := by
  obtain ⟨before, access, clk, since, rfl, phase, kind, real, same, clear⟩ := explained
  refine ⟨before, access, clk, since ++ [event], by simp, phase, kind, real, same, ?_⟩
  intro other member
  rcases List.mem_append.mp member with old | single
  · exact clear other old
  · rwa [List.mem_singleton.mp single]

theorem Explained.now (phase : cp.after = false) (kind : remembered cp.typeId = true)
    (real : cp.addr ≠ 0) : Explained (past ++ [.capture cp clk]) cp.entry :=
  ⟨past, cp, clk, [], rfl, phase, kind, real, rfl, fun _ none => absurd none List.not_mem_nil⟩

theorem Known.later (known : Known past key oset) (keeps : ¬Clears key event) :
    Known (past ++ [event]) key oset := by
  intro ee member
  obtain ⟨rfl, explained⟩ := known ee member
  exact ⟨rfl, explained.later keeps⟩

theorem known_clear (past : List RaceEvent) (key : UInt64) (oset : OtSet) :
    Known past key (otClear oset) := fun _ none => absurd none List.not_mem_nil

end History

section Sets

theorem findOrInit_known (all : All (Known past) s) (task : TaskId) :
    All (Known past) (findOrInit ⟨0, []⟩ task s).2 ∧
      (findOrInit ⟨0, []⟩ task s).2.lookup task = some (findOrInit (⟨0, []⟩ : OtSet) task s).1 := by
  rw [findOrInit]
  cases found : s.lookup task with
  | some oset => exact ⟨all, found⟩
  | none =>
      refine ⟨all.insert fun _ none => absurd none List.not_mem_nil, ?_⟩
      exact AList.lookup_insert s

theorem otLazyDereg_known (all : All (Known past) s) (task : TaskId) (clk : Nat) :
    All (Known past) (otLazyDereg task clk s) := by
  rw [otLazyDereg]
  cases found : s.lookup task with
  | none => exact all
  | some oset =>
      simp only
      split
      · exact all
      · refine All.replace (mem_of_lookup found) ?_ ?_
        · exact fun key oset _ here => all key oset here
        · exact all task oset found

theorem otCleanup_known (items : List (Sigma fun _ : UInt64 => OtSet)) (all : All (Known past) s)
    {keepsFreed : Bool} (cleaned : otCleanup keepsFreed clk items s = .ok s') :
    All (Known past) s' := by
  induction items generalizing s with
  | nil =>
      cases cleaned
      exact all
  | cons item next ih =>
      obtain ⟨key, oset⟩ := item
      rw [otCleanup] at cleaned
      split at cleaned
      · obtain ⟨_, _, cleaned⟩ := bind_eq_ok.mp cleaned
        exact ih (All.erase fun key oset _ here => all key oset here) cleaned
      · exact ih all cleaned

theorem otConflict_known (items : List (Sigma fun _ : UInt64 => OtSet)) (all : All (Known past) s) :
    All (Known past) (otConflict config task e clk items s).2 := by
  induction items generalizing s with
  | nil => exact all
  | cons item next ih =>
      obtain ⟨key, oset⟩ := item
      rw [otConflict]
      split
      · exact ih all
      · split
        · exact ih (All.erase fun key oset _ here => all key oset here)
        · split
          · exact ih all
          · exact all

theorem otConflict_found (items : List (Sigma fun _ : UInt64 => OtSet))
    (found : (otConflict config task e clk items s).1 = some r) :
    ∃ key oset, ⟨key, oset⟩ ∈ items ∧ key ≠ task ∧ ∃ ee ∈ oset.entries,
      conflicts config e ee = true ∧ r = ⟨e.addr, e.loc, ee.loc⟩ := by
  induction items generalizing s with
  | nil => cases found
  | cons item next ih =>
      have behind {s : Map OtSet} (found : (otConflict config task e clk next s).1 = some r) :
          ∃ key oset, ⟨key, oset⟩ ∈ item :: next ∧ key ≠ task ∧ ∃ ee ∈ oset.entries,
            conflicts config e ee = true ∧ r = ⟨e.addr, e.loc, ee.loc⟩ := by
        obtain ⟨key, oset, member, rest⟩ := ih found
        exact ⟨key, oset, List.mem_cons_of_mem item member, rest⟩
      obtain ⟨key, oset⟩ := item
      rw [otConflict] at found
      split at found
      · exact behind found
      · next differs =>
          split at found
          · exact behind found
          · split at found
            · exact behind found
            · next ee hit =>
                cases found
                exact ⟨key, oset, List.mem_cons_self, fun same => differs same.symm, ee,
                  List.mem_of_find?_eq_some hit, List.find?_some hit, rfl⟩

end Sets

section Steps

theorem Clears.of_capture (clears : Clears task (.capture cp clk)) :
    task = cp.task ∧ cp.after = true := ⟨clears.1.symm, clears.2.1⟩

/-- What is known stays so over an event that clears at most sets that are empty. -/
theorem all_known_later (all : All (Known past) s)
    (keeps : ∀ key oset, s.lookup key = some oset → Clears key event → oset.entries = []) :
    All (Known (past ++ [event])) s := by
  intro key oset here
  by_cases clears : Clears key event
  · intro ee member
    rw [keeps key oset here clears] at member
    exact absurd member List.not_mem_nil
  · exact (all key oset here).later clears

theorem otAdd_known (known : Known (past ++ [.capture cp clk]) cp.task oset)
    (phase : cp.after = false) (kind : remembered cp.typeId = true) (real : cp.addr ≠ 0) :
    Known (past ++ [.capture cp clk]) cp.task (otAdd oset cp.entry) := by
  rw [otAdd]
  split
  · exact known
  · intro ee member
    rcases List.mem_append.mp member with old | single
    · exact known ee old
    · rw [List.mem_singleton.mp single]
      exact ⟨rfl, Explained.now phase kind real⟩

theorem Forgets.empty (forgets : Forgets s (.capture cp clk)) (after : cp.after = true)
    (weak : cp.typeId = .maCmpxchgWeak) :
    (findOrInit (⟨0, []⟩ : OtSet) cp.task s).1.entries = [] := by
  rw [findOrInit]
  cases found : s.lookup cp.task with
  | none => rfl
  | some oset => exact forgets after weak oset found

theorem raceCheck_known (all : All (Known past) s) (forgets : Forgets s (.capture cp clk)) :
    All (Known (past ++ [.capture cp clk])) (raceCheck config cp clk s).2 := by
  have empty (after : cp.after = true) := forgets.empty after
  obtain ⟨known, found⟩ := findOrInit_known all cp.task
  rw [raceCheck]
  generalize findOrInit (⟨0, []⟩ : OtSet) cp.task s = state at known found empty ⊢
  obtain ⟨oset, s⟩ := state
  dsimp only at known found empty ⊢
  by_cases phase : cp.after = false
  · have later : All (Known (past ++ [.capture cp clk])) s := by
      apply all_known_later known
      intro key oset _ clears
      rw [clears.of_capture.2] at phase
      cases phase
    rw [if_pos phase]
    split_ifs with kind null modifying null
    · exact later
    · apply otConflict_known
      apply All.replace (mem_of_lookup found) fun key oset _ here => later key oset here
      exact otAdd_known (later cp.task oset found) phase kind null
    · exact later
    · exact otConflict_known _ later
    · exact later
  · rw [if_neg phase]
    split_ifs with clearing
    · refine All.replace (mem_of_lookup found) ?_ (known_clear _ _ _)
      intro key oset other here
      exact (known key oset here).later fun clears => other clears.of_capture.1
    · apply all_known_later known
      intro key oset' here clears
      obtain ⟨rfl, after⟩ := clears.of_capture
      rw [found] at here
      cases here
      apply empty after
      obtain ⟨-, -, modifying | weak | fence⟩ := clears
      · exact absurd (Bool.or_eq_true_iff.mpr (.inl modifying)) clearing
      · exact weak
      · exact absurd (Bool.or_eq_true_iff.mpr (.inr (beq_iff_eq.mpr fence))) clearing

structure Inv (config : RaceConfig) (past : List RaceEvent) (s : Map OtSet) : Prop where
  known : All (Known past) s
  disabled : config.enabled = false → s = ∅

theorem inv_empty (config : RaceConfig) : Inv config [] ∅ := ⟨All.empty, fun _ => rfl⟩

theorem inv_disabled (inv : Inv config past s) (off : config.enabled = false) (event : RaceEvent) :
    Inv config (past ++ [event]) s := by
  rw [inv.disabled off]
  exact ⟨All.empty, fun _ => rfl⟩

theorem raceHandle_inv {race : Option RaceT} (inv : Inv config past s)
    (forgets : Forgets s (.capture cp clk))
    (handled : raceHandle config cp clk s = .ok (race, s')) :
    Inv config (past ++ [.capture cp clk]) s' := by
  rw [raceHandle] at handled
  obtain ⟨_, _, handled⟩ := bind_eq_ok.mp handled
  by_cases off : config.enabled = false
  · rw [if_pos off] at handled
    cases handled
    exact inv_disabled inv off _
  · rw [if_neg off] at handled
    refine ⟨?_, fun disabled => absurd disabled off⟩
    have whole (harmless : ∀ key, ¬Clears key (.capture cp clk)) :
        All (Known (past ++ [.capture cp clk])) s :=
      inv.known.mono fun key oset known => known.later (harmless key)
    by_cases fini : cp.typeId = .taskFini
    · rw [if_pos fini] at handled
      cases handled
      apply otLazyDereg_known
      apply whole
      rintro key ⟨-, -, kind⟩
      rw [fini] at kind
      rcases kind with kind | kind | kind <;> cases kind
    · rw [if_neg fini] at handled
      by_cases init : cp.typeId = .taskInit
      · rw [if_pos init] at handled
        cases handled
        apply whole
        rintro key ⟨-, -, kind⟩
        rw [init] at kind
        rcases kind with kind | kind | kind <;> cases kind
      · rw [if_neg init] at handled
        have known : All (Known (past ++ [.capture cp clk])) (raceCheck config cp clk s).2 :=
          raceCheck_known inv.known forgets
        simp only at handled
        split at handled
        · obtain ⟨s₁, cleaned, handled⟩ := bind_eq_ok.mp handled
          cases handled
          exact otCleanup_known _ known cleaned
        · cases handled
          exact known

theorem raceResumeHandle_inv (inv : Inv config past s)
    (handled : raceResumeHandle config cp s = .ok s') : Inv config (past ++ [.resume cp]) s' := by
  rw [raceResumeHandle] at handled
  obtain ⟨_, _, handled⟩ := bind_eq_ok.mp handled
  by_cases off : config.enabled = false
  · rw [if_pos off] at handled
    cases handled
    exact inv_disabled inv off _
  · rw [if_neg off] at handled
    refine ⟨?_, fun disabled => absurd disabled off⟩
    have others : ∀ key oset, key ≠ cp.task → s.lookup key = some oset →
        Known (past ++ [.resume cp]) key oset := by
      intro key oset differs here
      apply (inv.known key oset here).later
      rintro ⟨same, -⟩
      exact differs same.symm
    split at handled
    · split at handled
      · next absent =>
          cases handled
          intro key oset here
          apply others key oset _ here
          rintro rfl
          rw [absent] at here
          cases here
      · next oset found =>
          cases handled
          exact All.replace (mem_of_lookup found) others (known_clear _ _ _)
    · next harmless =>
        cases handled
        refine inv.known.mono fun key oset known => known.later ?_
        rintro ⟨-, kind⟩
        exact harmless kind

theorem step_inv (inv : Inv config past s) (forgets : Forgets s event)
    (done : step config event s = .ok s') : Inv config (past ++ [event]) s' := by
  cases event with
  | capture cp clk =>
      obtain ⟨⟨race, next⟩, handled, done⟩ := bind_eq_ok.mp done
      cases done
      exact raceHandle_inv inv forgets handled
  | resume cp => exact raceResumeHandle_inv inv done

theorem run_inv (inv : Inv config past s) (forgets : AllowedAlong (step config) Forgets events s)
    (ran : run config events s = .ok s') :
    Inv config (past ++ events) s' := by
  induction events generalizing past s with
  | nil =>
      cases ran
      rwa [List.append_nil]
  | cons event events ih =>
      obtain ⟨next, done, rest⟩ := bind_eq_ok.mp ran
      have whole := ih (step_inv inv forgets.1 done) (forgets.2 next done) rest
      rwa [List.append_assoc] at whole

end Steps

section Reports

theorem conflicts_spec (hit : conflicts config e ee = true) :
    ee.addr = e.addr ∧ ee.isVid = e.isVid ∧ (ee.atomic = false ∨ e.atomic = false) ∧
      (ee.readonly = false ∨ e.readonly = false) := by
  simp only [conflicts, Bool.and_eq_true, Bool.not_eq_true', Bool.and_eq_false_iff, beq_iff_eq] at hit
  obtain ⟨⟨⟨⟨addr, mode⟩, atomic⟩, -⟩, readonly⟩ := hit
  exact ⟨addr, mode, atomic, readonly⟩

theorem conflict_sound (known : All (Known past) s) (phase : cp.after = false)
    (kind : remembered cp.typeId = true ∨ modifies cp.typeId = true) (real : cp.addr ≠ 0)
    {others : Map OtSet}
    (same : ∀ key oset, key ≠ cp.task → others.lookup key = some oset → s.lookup key = some oset)
    (found : (otConflict config cp.task cp.entry clk others.entries s').1 = some r) :
    Sound past cp r := by
  obtain ⟨key, oset, member, differs, ee, inside, hit, rfl⟩ := otConflict_found _ found
  have here : others.lookup key = some oset := AList.mem_lookup_iff.mpr member
  obtain ⟨own, before, access, clk', since, rfl, phase', kind', real', rfl, clear⟩ :=
    known key oset (same key oset differs here) ee inside
  obtain ⟨addr, mode, atomic, readonly⟩ := conflicts_spec hit
  refine ⟨before, access, clk', since, rfl, phase', kind', phase, kind, rfl, real, addr, ?_,
    readonly, atomic, mode, clear⟩
  intro equal
  apply differs
  rw [← own]
  exact equal

end Reports

/-- Every race that is returned after a run whose weak compare-exchanges have nothing to clear is
between two accesses that the run explains. -/
theorem race_reports_sound (config : RaceConfig) (past : List RaceEvent)
    (forgets : AllowedAlong (step config) Forgets past ∅) (ran : run config past ∅ = .ok s)
    (cp : RaceCapture) (clk : Nat) (reported : (raceCheck config cp clk s).1 = some r) :
    Sound past cp r := by
  have known := (run_inv (inv_empty config) forgets ran).known
  rw [List.nil_append] at known
  obtain ⟨known, found⟩ := findOrInit_known known cp.task
  rw [raceCheck] at reported
  generalize findOrInit (⟨0, []⟩ : OtSet) cp.task s = state at known found reported
  obtain ⟨oset, s⟩ := state
  by_cases phase : cp.after = false
  · simp only [if_pos phase] at reported
    by_cases kind : remembered cp.typeId = true
    · rw [if_pos kind] at reported
      by_cases null : cp.addr = 0
      · rw [if_pos null] at reported
        cases reported
      · rw [if_neg null] at reported
        refine conflict_sound known phase (.inl kind) null ?_ reported
        intro key oset differs here
        exact ((lookup_replace_some (mem_of_lookup found)).mp here).resolve_left
          (fun both => differs both.1) |>.2
    · rw [if_neg kind] at reported
      by_cases kind' : modifies cp.typeId = true
      · rw [if_pos kind'] at reported
        by_cases null : cp.addr = 0
        · rw [if_pos null] at reported
          cases reported
        · rw [if_neg null] at reported
          exact conflict_sound known phase (.inr kind') null (fun _ _ _ here => here) reported
      · rw [if_neg kind'] at reported
        cases reported
  · simp only [if_neg phase] at reported
    split at reported <;> cases reported

section Example

def write1 : RaceCapture := ⟨false, .maWrite, 1, noTask, 0x10, 0x1000⟩

def read2 : RaceCapture := ⟨false, .maRead, 2, noTask, 0x20, 0x1000⟩

def weak1 : RaceCapture := ⟨true, .maCmpxchgWeak, 1, noTask, 0x14, 0x2000⟩

end Example

theorem write_read_sound :
    Sound [.capture write1 1] read2 ⟨0x1000, ⟨2, 0x20, true⟩, ⟨1, 0x10, false⟩⟩ :=
  race_reports_sound ⟨true, false, false⟩ [.capture write1 1]
    ⟨fun after => absurd after (by decide), fun _ _ => trivial⟩ rfl read2 2 rfl

/-- The write is still reported once its task has done a weak compare-exchange. -/
theorem weak_exchange_reported :
    ∃ s, run ⟨true, false, false⟩ [.capture write1 1, .capture weak1 2] ∅ = .ok s ∧
      (raceCheck ⟨true, false, false⟩ read2 3 s).1 =
        some ⟨0x1000, ⟨2, 0x20, true⟩, ⟨1, 0x10, false⟩⟩ ∧
      ¬Sound [.capture write1 1, .capture weak1 2] read2
        ⟨0x1000, ⟨2, 0x20, true⟩, ⟨1, 0x10, false⟩⟩ := by
  refine ⟨_, rfl, rfl, ?_⟩
  rintro ⟨before, access, clk, since, split, phase, kind, -, -, race, -, -, -, -, -, -, clear⟩
  match before, split with
  | [], split =>
      cases split
      exact clear _ List.mem_cons_self ⟨rfl, rfl, .inr (.inl rfl)⟩
  | [_], split =>
      cases split
      cases kind
  | _ :: _ :: before, split =>
      have length := congrArg List.length split
      simp at length

end Lotto.Race
