import Lotto.Pos

namespace Lotto.PosRun

open Library.FaultRun Library.KeyMap Library.Preference

variable {G : Type} {config : PosConfig} {accesses : TypeId → Option Bool}
  {prngNext : G → UInt64 × G} {cp : CapturePoint} {e e' : Decision} {g g' : G}
  {map map' : Tidmap PosTask}

def pending (map : Tidmap PosTask) (task : TaskId) : Option (UInt64 × Bool) :=
  (map.lookup task).map fun item => (item.addr, item.isWrite)

theorem pending_congr {task : TaskId} (same : map'.lookup task = map.lookup task) :
    pending map' task = pending map task := by rw [pending, pending, same]

theorem pending_isSome (task : TaskId) : (pending map task).isSome = (map.lookup task).isSome := by
  simp [pending]

/-- `task` is another task that is about to access the address. -/
def meets (map : Tidmap PosTask) (id : TaskId) (addr : UInt64) (task : TaskId) : Bool :=
  task != id && ((map.lookup task).map PosTask.addr == some addr)

def drawList (prngNext : G → UInt64 × G) : Nat → G → List UInt64
  | 0, _ => []
  | n + 1, g => (prngNext g).1 :: drawList prngNext n (prngNext g).2

/-- What `_reset_races` does to the map: the tasks that `meet` the chosen one are given the next
random numbers, in the order of the map, and nothing else changes. -/
structure Redrawn (prngNext : G → UInt64 × G) (hit : TaskId → Bool) (ids : List TaskId)
    (map : Tidmap PosTask) (g : G) (map' : Tidmap PosTask) : Prop where
  accesses : ∀ task, pending map' task = pending map task
  kept : ∀ task, ¬(task ∈ ids ∧ hit task = true) → map'.lookup task = map.lookup task
  drawn : (ids.filter hit).map (priorityIn PosTask.priority map') =
    drawList prngNext (ids.filter hit).length g

theorem redrawn_nil (hit : TaskId → Bool) : Redrawn prngNext hit [] map g map :=
  ⟨fun _ => rfl, fun _ _ => rfl, rfl⟩

theorem meets_replace (id : TaskId) (addr : UInt64) {other : TaskId} {item : PosTask}
    (found : map.lookup other = some item) (priority : UInt64) (task : TaskId) :
    meets (map.replace other { item with priority }) id addr task = meets map id addr task := by
  have known : other ∈ map := mem_of_lookup found
  rw [meets, meets, lookup_replace known]
  by_cases same : task = other
  · subst same
    simp [found]
  · simp [same]

theorem pending_replace {other : TaskId} {item : PosTask} (found : map.lookup other = some item)
    (priority : UInt64) (task : TaskId) :
    pending (map.replace other { item with priority }) task = pending map task := by
  have known : other ∈ map := mem_of_lookup found
  rw [pending, pending, lookup_replace known]
  by_cases same : task = other
  · subst same
    simp [found]
  · simp [same]

theorem resetLoop_redrawn (id : TaskId) (addr : UInt64) {ids : List TaskId} (distinct : ids.Nodup)
    (map : Tidmap PosTask) (g : G) :
    Redrawn prngNext (meets map id addr) ids map g (resetLoop prngNext id addr ids map g).1 := by
  induction ids generalizing map g with
  | nil => exact redrawn_nil _
  | cons other rest ih =>
      obtain ⟨absent, distinct⟩ := List.nodup_cons.mp distinct
      have skip : meets map id addr other = false →
          Redrawn prngNext (meets map id addr) (other :: rest) map g
            (resetLoop prngNext id addr rest map g).1 := by
        intro quiet
        obtain ⟨accesses, kept, drawn⟩ := ih distinct map g
        refine ⟨accesses, ?_, ?_⟩
        · intro task outside
          apply kept
          rintro ⟨member, met⟩
          exact outside ⟨List.mem_cons_of_mem _ member, met⟩
        · rw [List.filter_cons_of_neg (by simp [quiet])]
          exact drawn
      rw [resetLoop]
      cases found : map.lookup other with
      | none =>
          apply skip
          simp [meets, found]
      | some item =>
          dsimp only
          split_ifs with spared
          · apply skip
            rcases spared with rfl | apart
            · simp [meets]
            · simp [meets, found, Ne.symm apart]
          · push Not at spared
            obtain ⟨differs, same⟩ := spared
            have known : other ∈ map := mem_of_lookup found
            have met : meets map id addr other = true := by simp [meets, found, differs, same]
            have hits := meets_replace id addr found (prngNext g).1
            obtain ⟨accesses, kept, drawn⟩ :=
              ih distinct (map.replace other { item with priority := (prngNext g).1 }) (prngNext g).2
            rw [funext hits] at kept drawn
            refine ⟨?_, ?_, ?_⟩
            · intro task
              exact (accesses task).trans (pending_replace found _ task)
            · intro task outside
              have other' : task ≠ other := by
                rintro rfl
                exact outside ⟨List.mem_cons_self, met⟩
              have later := kept task fun inside =>
                outside ⟨List.mem_cons_of_mem _ inside.1, inside.2⟩
              rw [freshPriority]
              exact later.trans (by rw [lookup_replace known, if_neg other'])
            · have first := kept other fun inside => absent inside.1
              rw [List.filter_cons_of_pos met]
              simp only [List.map_cons, List.length_cons, drawList, freshPriority]
              congr 1
              rw [priorityIn, first, lookup_replace known, if_pos rfl]
              rfl

def races (map : Tidmap PosTask) (chosen : TaskId) : Bool :=
  match map.lookup chosen with
  | some item => item.addr != 0 && hasRace map chosen item
  | none => false

def resets (map : Tidmap PosTask) (chosen : TaskId) (task : TaskId) : Bool :=
  match map.lookup chosen with
  | some item => races map chosen && meets map chosen item.addr task
  | none => false

theorem resetRaces_redrawn {chosen : TaskId}
    (ran : resetRaces prngNext chosen map g = .ok (map', g')) :
    Redrawn prngNext (resets map chosen) map.keys map g map' := by
  obtain ⟨known, found, ran⟩ := bind_eq_ok.mp ran
  obtain ⟨_, _, found⟩ := bind_eq_ok.mp found
  cases found
  cases found : map.lookup chosen with
  | none =>
      rw [found] at ran
      cases ran
  | some item =>
      rw [found] at ran
      have none : races map chosen = false → map' = map →
          Redrawn prngNext (resets map chosen) map.keys map g map' := by
        intro quiet same
        have nobody : ∀ task, resets map chosen task = false := by simp [resets, found, quiet]
        rw [same]
        have empty : map.keys.filter (resets map chosen) = [] :=
          List.filter_eq_nil_iff.mpr fun task _ => by simp [nobody task]
        refine ⟨fun _ => rfl, fun _ _ => rfl, ?_⟩
        rw [empty]
        rfl
      dsimp only at ran
      split_ifs at ran with zero quiet
      · cases ran
        exact none (by simp [races, found, zero]) rfl
      · cases ran
        have calm : hasRace map chosen item = false := by simpa using quiet
        exact none (by simp [races, found, calm]) rfl
      · have raced : hasRace map chosen item = true := by simpa using quiet
        have racing : races map chosen = true := by simp [races, found, raced, zero]
        have hits : resets map chosen = meets map chosen item.addr := by
          funext task
          simp [resets, found, racing]
        have result := Except.ok.inj ran
        have same : map' = (resetLoop prngNext chosen item.addr map.keys map g).1 := by rw [result]
        rw [hits, same]
        exact resetLoop_redrawn chosen item.addr map.nodupKeys map g

theorem resetWd_pending (divisor : UInt64) (map : Tidmap PosTask) (task : TaskId) :
    pending (resetWd divisor map) task = pending map task := by
  unfold resetWd
  generalize map.keys = ids
  induction ids generalizing map with
  | nil => rfl
  | cons id rest ih =>
      rw [List.foldl_cons, ih]
      cases found : map.lookup id with
      | none => rfl
      | some item => exact pending_replace found _ task

theorem posUpdate_pending {wd : UInt64 × UInt64} {access : UInt64 × Bool}
    (ran : posUpdate prngNext wd cp access map g = .ok (map', g')) (task : TaskId) :
    pending map' task =
      if task = cp.id ∧ (cp.typeId = eventTaskFini → (map.lookup cp.id).isSome) then some access
      else pending map task := by
  obtain ⟨known, found, ran⟩ := bind_eq_ok.mp ran
  obtain ⟨_, _, found⟩ := bind_eq_ok.mp found
  cases found
  cases found : map.lookup cp.id with
  | some item =>
      rw [found] at ran
      have known : cp.id ∈ map := mem_of_lookup found
      have written : ∀ priority, pending (map.replace cp.id ⟨priority, access.1, access.2⟩) task =
          if task = cp.id then some access else pending map task := by
        intro priority
        rw [pending, lookup_replace known]
        by_cases same : task = cp.id
        · simp [same]
        · simp [same, pending]
      dsimp only at ran
      split_ifs at ran
      · cases ran
        rw [resetWd_pending, written]
        simp
      · cases ran
        rw [written]
        simp
  | none =>
      rw [found] at ran
      dsimp only at ran
      split_ifs at ran with isFini
      · cases ran
        simp [isFini]
      · obtain ⟨added, registered, ran⟩ := bind_eq_ok.mp ran
        obtain ⟨_, _, registered⟩ := bind_eq_ok.mp registered
        obtain ⟨_, _, registered⟩ := bind_eq_ok.mp registered
        cases ran
        cases registered
        by_cases same : task = cp.id
        · subst same
          simp [pending, freshTask, isFini]
        · simp [pending, AList.lookup_insert_ne same, same]

/-- `_pos_handle` up to the choice: the map that the tasks are sorted by. -/
def posChoice (config : PosConfig) (accesses : TypeId → Option Bool) (prngNext : G → UInt64 × G)
    (cp : CapturePoint) (e : Decision) (st : PosState) (g : G) : Except Fault (Tidmap PosTask × G) := do
  let wd ← posOnce config st.wd
  let (map, g) ← taskLifecycle (freshTask prngNext 0 false) cp e st.map g
  posUpdate prngNext wd cp (posAccess accesses cp) map g

/-- A choice: the task of the highest priority is taken, and the tasks that race with it get other
priorities. -/
structure Chosen (config : PosConfig) (accesses : TypeId → Option Bool) (prngNext : G → UInt64 × G)
    (cp : CapturePoint) (e : Decision) (st : PosState) (g : G) (e' : Decision)
    (map' : Tidmap PosTask) : Prop where
  decides : posDecides config e = true
  choice : ∃ map g₁, posChoice config accesses prngNext cp e st g = .ok (map, g₁) ∧
    (∀ task ∈ e.tset, (map.lookup task).isSome) ∧
    e' = chooseFirst e (e.tset.sort (Precedes (priorityIn PosTask.priority map))) ∧
    Redrawn prngNext (resets map (e'.tset.get 0)) map.keys map g₁ map'

variable {st st' : PosState}

theorem posHandle_cases
    (ran : posHandle config accesses prngNext cp e st g = .ok (e', st', g')) :
    e.skip = true ∧ e' = e ∧ st'.map = st.map ∨
      e.skip = false ∧ ∃ map g₁, Lived (freshTask prngNext 0 false) cp st.map g map g₁ ∧
        (posDecides config e = false ∧ e' = e ∧ st'.map = map ∨
          Chosen config accesses prngNext cp e st g e' st'.map ∧
            ∃ wd map₂ g₂, posUpdate prngNext wd cp (posAccess accesses cp) map g₁ = .ok (map₂, g₂) ∧
              ∀ task, pending st'.map task = pending map₂ task) := by
  obtain ⟨wd, warm, ran⟩ := bind_eq_ok.mp ran
  by_cases skipped : e.skip = true
  · rw [if_pos skipped] at ran
    cases ran
    exact Or.inl ⟨skipped, rfl, rfl⟩
  · rw [if_neg skipped] at ran
    right
    obtain ⟨⟨map, g₁⟩, lived, ran⟩ := bind_eq_ok.mp ran
    refine ⟨by simpa using skipped, map, g₁, taskLifecycle_cases lived, ?_⟩
    by_cases decides : posDecides config e = true
    · right
      simp only [decides, Bool.not_true, Bool.false_eq_true, if_false] at ran
      obtain ⟨⟨map₂, g₂⟩, updated, ran⟩ := bind_eq_ok.mp ran
      obtain ⟨tset, sorted, ran⟩ := bind_eq_ok.mp ran
      obtain ⟨⟨map₃, g₃⟩, reset, ran⟩ := bind_eq_ok.mp ran
      cases ran
      obtain ⟨known, rfl⟩ := prioritySort_ok sorted
      have redrawn := resetRaces_redrawn reset
      have chose : posChoice config accesses prngNext cp e st g = .ok (map₂, g₂) := by
        simp only [posChoice, warm, lived, ok_bind, updated]
      exact ⟨⟨decides, map₂, g₂, chose, known, rfl, redrawn⟩, wd, map₂, g₂, updated, redrawn.accesses⟩
    · left
      simp only [decides, Bool.not_false, if_true] at ran
      cases ran
      exact ⟨by simpa using decides, rfl, rfl⟩

/-- The access a task is about to make, from the captures alone: that of its last capture at which
the strategy chose. -/
def lastAccess (config : PosConfig) (accesses : TypeId → Option Bool)
    (captures : List (CapturePoint × Decision)) (task : TaskId) : Option (UInt64 × Bool) :=
  captures.foldl (fun access c =>
    if task ≠ c.1.id ∨ c.2.skip = true then access
    else if c.1.typeId = eventTaskFini then none
    else if posDecides config c.2 then some (posAccess accesses c.1)
    else if c.1.typeId = eventTaskInit then some (0, false)
    else access) none

/-- A capture at which the strategy chose, with the states before and behind it. -/
structure Round (G : Type) where
  cp : CapturePoint
  e : Decision
  state : PosState
  draws : G
  decision : Decision
  map : Tidmap PosTask

structure Progress (G : Type) where
  log : List (Round G)
  state : PosState
  draws : G

def posRunStep (config : PosConfig) (accesses : TypeId → Option Bool) (prngNext : G → UInt64 × G)
    (p : Progress G) (c : CapturePoint × Decision) : Except Fault (Progress G) := do
  let (decision, state, draws) ← posHandle config accesses prngNext c.1 c.2 p.state p.draws
  let round : Round G :=
    { cp := c.1, e := c.2, state := p.state, draws := p.draws, decision, map := state.map }
  .ok { log := if !c.2.skip && posDecides config c.2 then p.log ++ [round] else p.log, state, draws }

/-- `_pos_handle` at the captures of a run, with the decision each of them is given. -/
def posRun (config : PosConfig) (accesses : TypeId → Option Bool) (prngNext : G → UInt64 × G)
    (captures : List (CapturePoint × Decision)) (p : Progress G) : Except Fault (Progress G) :=
  captures.foldlM (posRunStep config accesses prngNext) p

/-- The round took the task of the highest priority and redrew exactly its races. -/
def Round.Exact (config : PosConfig) (accesses : TypeId → Option Bool) (prngNext : G → UInt64 × G)
    (r : Round G) : Prop :=
  ∃ map draws, posChoice config accesses prngNext r.cp r.e r.state r.draws = .ok (map, draws) ∧
    Best (Precedes (priorityIn PosTask.priority map)) r.e.tset.tasks (r.decision.tset.get 0) ∧
    Redrawn prngNext (resets map (r.decision.tset.get 0)) map.keys map draws r.map

theorem Chosen.exact (chosen : Chosen config accesses prngNext cp e st g e' map') :
    (⟨cp, e, st, g, e', map'⟩ : Round G).Exact config accesses prngNext := by
  obtain ⟨map, g₁, chose, _, same, redrawn⟩ := chosen.choice
  refine ⟨map, g₁, chose, ?_, redrawn⟩
  have many : 0 < e.tset.size := by
    have decides := chosen.decides
    simp only [posDecides, strategyDecides, Bool.and_eq_true, decide_eq_true_eq] at decides
    omega
  rw [same]
  exact Tidset.best_sort _ many

theorem posHandle_pending
    (ran : posHandle config accesses prngNext cp e st g = .ok (e', st', g')) (task : TaskId)
    {access : Option (UInt64 × Bool)} (before : pending st.map task = access) :
    pending st'.map task =
      if task ≠ cp.id ∨ e.skip = true then access
      else if cp.typeId = eventTaskFini then none
      else if posDecides config e then some (posAccess accesses cp)
      else if cp.typeId = eventTaskInit then some (0, false)
      else access := by
  rcases posHandle_cases ran with ⟨skipped, _, same⟩ | ⟨runs, map, g₁, lived, cases⟩
  · simp [skipped, same, before]
  · by_cases captured : task = cp.id
    · subst captured
      have life : pending map cp.id =
          if cp.typeId = eventTaskFini then none
          else if cp.typeId = eventTaskInit then some (0, false)
          else access := by
        cases lived with
        | fini isFini => simp [pending, isFini]
        | init isInit _ =>
            have notFini : cp.typeId ≠ eventTaskFini := by rw [isInit]; decide
            simp [pending, isInit, freshTask, eventTaskInit, eventTaskFini]
        | other notFini notInit => simp [notFini, notInit, before]
      rcases cases with ⟨quiet, _, same⟩ | ⟨chosen, wd, map₂, g₂, updated, same⟩
      · rw [same, life]
        simp [runs, quiet]
      · rw [same, posUpdate_pending updated, life]
        have absent : cp.typeId = eventTaskFini → (map.lookup cp.id).isSome = false := by
          intro isFini
          rw [← pending_isSome, life, if_pos isFini]
          rfl
        by_cases isFini : cp.typeId = eventTaskFini
        · simp [runs, isFini, absent isFini]
        · simp [runs, isFini, chosen.decides]
    · have other : pending map task = access := by
        rw [← before]
        exact pending_congr (lived.lookup_ne captured)
      rcases cases with ⟨quiet, _, same⟩ | ⟨chosen, wd, map₂, g₂, updated, same⟩
      · rw [same, other]
        simp [captured]
      · rw [same, posUpdate_pending updated, other]
        simp [captured]

/-- The table of pending accesses is exact in every run, and every choice takes the task of the
highest priority and redraws the priorities of exactly the tasks that race with it. -/
theorem pos_run_exact (config : PosConfig) (accesses : TypeId → Option Bool)
    (prngNext : G → UInt64 × G) (draws : G) (captures : List (CapturePoint × Decision))
    (p : Progress G)
    (ran : posRun config accesses prngNext captures { log := [], state := posStart, draws } = .ok p) :
    (∀ task, pending p.state.map task = lastAccess config accesses captures task) ∧
      ∀ r ∈ p.log, r.Exact config accesses prngNext := by
  induction captures using List.reverseRecOn generalizing p with
  | nil =>
      cases ran
      exact ⟨fun _ => rfl, by simp⟩
  | append_singleton captures c ih =>
      rw [posRun, List.foldlM_append] at ran
      obtain ⟨mid, before, ran⟩ := bind_eq_ok.mp ran
      obtain ⟨exact, rounds⟩ := ih mid before
      rw [List.foldlM_cons] at ran
      obtain ⟨last, stepped, ran⟩ := bind_eq_ok.mp ran
      cases ran
      obtain ⟨⟨e', st', g'⟩, handled, stepped⟩ := bind_eq_ok.mp stepped
      cases stepped
      refine ⟨?_, ?_⟩
      · intro task
        rw [lastAccess, List.foldl_append]
        exact posHandle_pending handled task (exact task)
      · intro r member
        by_cases logged : (!c.2.skip && posDecides config c.2) = true
        · simp only [logged, if_true] at member
          rcases List.mem_append.mp member with old | new
          · exact rounds r old
          · rw [List.mem_singleton.mp new]
            simp only [Bool.and_eq_true, Bool.not_eq_true'] at logged
            rcases posHandle_cases handled with ⟨skipped, _⟩ | ⟨_, map, g₁, _, ⟨quiet, _⟩ | ⟨chosen, _⟩⟩
            · simp [skipped] at logged
            · simp [quiet] at logged
            · exact chosen.exact
        · rw [if_neg logged] at member
          exact rounds r member

def sampleConfig : PosConfig := ⟨true, "pos", 10, none⟩

theorem pos_run_exact_two_writes :
    ∃ p, posRun sampleConfig (fun _ => some true) (fun g => (g, g + 1)) (twoTasks 5 64)
        { log := [], state := posStart, draws := (5 : UInt64) } = .ok p ∧
      pending p.state.map 1 = some (64, true) ∧ pending p.state.map 2 = some (64, true) ∧
      ∀ r ∈ p.log, r.Exact sampleConfig (fun _ => some true) (fun g => (g, g + 1)) := by
  have runs : (posRun sampleConfig (fun _ => some true) (fun g => (g, g + 1)) (twoTasks 5 64)
      { log := [], state := posStart, draws := (5 : UInt64) }).isOk = true := by decide +kernel
  cases ran : posRun sampleConfig (fun _ => some true) (fun g => (g, g + 1)) (twoTasks 5 64)
      { log := [], state := posStart, draws := (5 : UInt64) } with
  | error fault =>
      rw [ran] at runs
      cases runs
  | ok p =>
      obtain ⟨table, exact⟩ :=
        pos_run_exact sampleConfig (fun _ => some true) (fun g => (g, g + 1)) 5 (twoTasks 5 64) p ran
      exact ⟨p, rfl, (table 1).trans rfl, (table 2).trans rfl, exact⟩

end Lotto.PosRun
