import Lotto.PctRun
import Lotto.PosRun
import Lotto.StrategyRun

namespace Lotto.Strategies

open Library.FaultRun Library.KeyMap Library.Preference
open RecorderReplay EngineRun RunTrace StrategyRun

variable {O P : Type}

section Lifecycle

variable {α G : Type} {fresh : G → α × G} {cp : CapturePoint} {e : Decision} {map map' : Tidmap α}
  {g g' : G}

structure Tracked (cp : CapturePoint) (e : Decision) (map : Tidmap α) : Prop where
  task : cp.id ≠ noTask
  init : cp.typeId = eventTaskInit → map.lookup cp.id = none
  known : cp.typeId ≠ eventTaskInit → (map.lookup cp.id).isSome
  fini : cp.typeId = eventTaskFini → cp.id ∉ e.tset
  tasks : noTask ∉ e.tset
  members : ∀ id ∈ e.tset, id ≠ cp.id → (map.lookup id).isSome

theorem Tracked.life (tracked : Tracked cp e map) : LifeReady cp e map :=
  ⟨tracked.task, tracked.fini, tracked.init⟩

theorem Lived.captured (tracked : Tracked cp e map) (lived : Lived fresh cp map g map' g') :
    (map'.lookup cp.id).isSome = !(cp.typeId == eventTaskFini) := by
  cases lived with
  | fini isFini => simp [isFini]
  | init isInit _ =>
      have notFini : cp.typeId ≠ eventTaskFini := by rw [isInit]; decide
      simp [notFini]
  | other notFini notInit => simp [notFini, tracked.known notInit]

theorem Lived.members (tracked : Tracked cp e map) (lived : Lived fresh cp map g map' g') :
    ∀ id ∈ e.tset, (map'.lookup id).isSome := by
  intro id member
  by_cases captured : id = cp.id
  · subst captured
    rw [Lived.captured tracked lived]
    have notFini : cp.typeId ≠ eventTaskFini := fun isFini => tracked.fini isFini member
    simp [notFini]
  · rw [lived.lookup_ne captured]
    exact tracked.members id member captured

end Lifecycle

section Sample

def drawModules : Modules UInt64 Unit where
  config := fun _ => { gran := 0, slack := 0 }
  marshal := fun _ _ => ()
  unmarshal := fun _ _ m => m
  config_persistent := fun _ _ => rfl

variable {S : Type}

def playPoint (strategy : Strategy S UInt64) (w : World (Strategic S UInt64) Unit)
    (c : CapturePoint × CapturePoint) : Option (World (Strategic S UInt64) Unit) := do
  let step := act (withStrategy drawModules) (prng PctRun.counting) (fun _ m => .ok m.others)
    fun w cp => decide (cp.typeId ≠ eventTaskInit → cp.id ∈ w.engine.modules.task.registered)
  let w ← step w (.capture c.1 (strategy.chain [] []))
  step w (.resume c.2)

def samplePlay (strategy : Strategy S UInt64) (points : List (CapturePoint × CapturePoint)) :
    Option (World (Strategic S UInt64) Unit) :=
  points.foldlM (playPoint strategy) (World.start none none ⟨strategy.start, 5⟩)

variable {strategy : Strategy S UInt64}

theorem playPoint_reaches {w w' : World (Strategic S UInt64) Unit} {c : CapturePoint × CapturePoint}
    (played : playPoint strategy w c = some w') :
    Reaches (withStrategy drawModules) (strategyRules strategy) w w' := by
  have polite : AllPolite ([] : List (OtherHandler S UInt64)) := fun _ none => by cases none
  have published : (strategyRules (P := Unit) strategy).chains fun _ m => .ok m.others := by
    intro cp m n same
    cases same
    rfl
  obtain ⟨mid, captured, resumed⟩ := Option.bind_eq_some_iff.mp played
  simp only [act] at captured
  split at captured
  · rename_i decision plan engine allowed decided run
    cases captured
    simp only [Bool.and_eq_true, Option.isNone_iff_eq_none, decide_eq_true_eq] at allowed
    have admitted : (strategyRules (P := Unit) strategy).captures w c.1 (strategy.chain [] [])
        (prng PctRun.counting) :=
      ⟨allowed.2, ⟨[], [], rfl, polite, polite⟩, PctRun.counting, rfl⟩
    have first := Step.capture allowed.1.1 allowed.1.2 admitted decided run
    simp only [act] at resumed
    split at resumed
    · rename_i capture engine running task resumed'
      cases resumed
      refine (Relation.ReflTransGen.single first).tail ?_
      exact Step.resume running (by simpa using task) trivial published resumed'
    · cases resumed
  · cases captured

theorem samplePlay_reaches {points : List (CapturePoint × CapturePoint)}
    {w : World (Strategic S UInt64) Unit} (played : samplePlay strategy points = some w) :
    Reaches (withStrategy drawModules) (strategyRules strategy)
      (World.start none none ⟨strategy.start, 5⟩) w := by
  unfold samplePlay at played
  generalize World.start none none (⟨strategy.start, 5⟩ : Strategic S UInt64) = first at played ⊢
  induction points generalizing first with
  | nil =>
      cases played
      exact Relation.ReflTransGen.refl
  | cons c points ih =>
      rw [List.foldlM_cons, Option.bind_eq_bind, Option.bind_eq_some_iff] at played
      obtain ⟨mid, one, rest⟩ := played
      exact (playPoint_reaches one).trans (ih mid rest)

def samplePoints : List (CapturePoint × CapturePoint) :=
  [(plainPoint 1 eventTaskInit 0, plainPoint 1 eventTaskInit 0),
    (plainPoint 2 eventTaskInit 0, plainPoint 1 eventTaskInit 0),
    (plainPoint 1 0 0, plainPoint 1 0 0)]

end Sample

section Pct

variable (config : O → PctConfig) (draw : O → UInt64 × O)

/-- `rand_val % k` is only computed where PCT chooses with a change point left. -/
def pctWorks (config : PctConfig) (e : Decision) (st : PctState) : Prop :=
  pctDecides config e = true → st.chpts < config.chpts → config.k ≠ 0

def pctRanks (cp : CapturePoint) (e : Decision) (s : PctState) (o : O) (id : TaskId) : UInt64 :=
  match pctHandle (config o) draw cp e s o with
  | .ok (_, s', _) => (s'.map.lookup id).getD 0
  | .error _ => 0

def pctStrategy : Strategy PctState O where
  start := pctStart
  knows s id := (s.map.lookup id).isSome
  works e s o := pctWorks (config o) e s
  handle cp e s o := pctHandle (config o) draw cp e s o
  decides e o := pctDecides (config o) e
  ranks := pctRanks config draw

variable {config draw} {cp : CapturePoint} {e : Decision} {s : PctState} {o : O}

theorem tracked_pct (ready : Ready (pctStrategy config draw) cp e s) : Tracked cp e s.map where
  task := ready.task
  init := fun isInit => by simpa [pctStrategy] using ready.init isInit
  known := ready.known
  fini := ready.fini
  tasks := ready.tasks
  members := ready.members

theorem pctIsChangePoint_ok {c : PctConfig} (randVal : UInt64) {st : PctState}
    (divisor : st.chpts < c.chpts → c.k ≠ 0) : ∃ change, pctIsChangePoint c randVal st = .ok change := by
  unfold pctIsChangePoint
  split_ifs with left
  · have some : (c.k != 0) = true := by simpa using divisor left
    exact ⟨_, by rw [some, check_true, ok_bind]⟩
  · exact ⟨_, rfl⟩

theorem pctDraw_ok {G : Type} {c : PctConfig} (prngNext : G → UInt64 × G) (cp : CapturePoint)
    {st : PctState} (divisor : st.chpts < c.chpts → c.k ≠ 0) (g : G) :
    ∃ st' g', pctDraw c prngNext cp st g = .ok (st', g') := by
  unfold pctDraw pctUpdate
  split_ifs
  · exact ⟨_, _, rfl⟩
  · exact ⟨_, _, rfl⟩
  · obtain ⟨change, drawn⟩ :
        ∃ change, pctIsChangePoint c (prngNext g).1 { st with kmax := st.kmax + 1 } = .ok change :=
      pctIsChangePoint_ok (prngNext g).1 divisor
    dsimp only
    rw [drawn, ok_bind]
    split_ifs <;> exact ⟨_, _, rfl⟩

theorem pctHandle_ok (config : O → PctConfig) (draw : O → UInt64 × O)
    (works : pctWorks (config o) e s) (tracked : Tracked cp e s.map) :
    ∃ result, pctHandle (config o) draw cp e s o = .ok result := by
  obtain ⟨map, g, lived⟩ := taskLifecycle_ok
    (fun g => ((pctPriority (draw g).1), (draw g).2)) tracked.life o
  have left := taskLifecycle_cases lived
  have captured := Lived.captured tracked left
  have members := Lived.members tracked left
  have init : pctInit draw cp e s.map o = .ok (map, g) := by
    unfold pctInit
    rw [lived, ok_bind]
    by_cases isFini : cp.typeId = eventTaskFini
    · simp [isFini]
    · have task : (cp.id != noTask) = true := by simpa using tracked.task
      have found : (map.lookup cp.id).isSome = true := by
        rw [captured]
        simp [isFini]
      simp [isFini, tidmapFind, task, found]
  unfold pctHandle
  rw [init, ok_bind]
  dsimp only
  split_ifs with quiet
  · exact ⟨_, rfl⟩
  · have divisor : ({ s with map } : PctState).chpts < (config o).chpts → (config o).k ≠ 0 :=
      works (by simpa using quiet)
    obtain ⟨st, g₂, drawn⟩ := pctDraw_ok draw cp divisor g
    have known : ∀ id ∈ e.tset, (st.map.lookup id).isSome := by
      intro id member
      rw [(PctRun.pctDraw_cases drawn).lookup]
      exact members id member
    rw [drawn, ok_bind]
    dsimp only
    rw [prioritySort_eq tracked.tasks known, ok_bind]
    exact ⟨_, rfl⟩

theorem pct_handled (ready : Ready (pctStrategy config draw) cp e s) {e' : Decision} {s' : PctState}
    {o' : O} (ran : pctHandle (config o) draw cp e s o = .ok (e', s', o')) :
    Handled (pctStrategy config draw) cp e s o e' s' := by
  have tracked := tracked_pct ready
  obtain ⟨map, g, lived, cases⟩ := PctRun.pctHandle_cases ran
  have lookups : ∀ id, (s'.map.lookup id).isSome = (map.lookup id).isSome := by
    intro id
    rcases cases with ⟨_, _, rfl⟩ | chosen
    · rfl
    · rw [chosen.updated.lookup]
  constructor
  case captured => exact (lookups cp.id).trans (Lived.captured tracked lived)
  case others => exact fun id other => (lookups id).trans (by rw [lived.lookup_ne other]; rfl)
  case quiet =>
    intro quiet
    rcases cases with ⟨_, same, _⟩ | chosen
    · exact same
    · have decides := chosen.decides
      rw [show pctDecides (config o) e = false from quiet] at decides
      cases decides
  case chooses =>
    intro decides
    rcases cases with ⟨quiet, _⟩ | chosen
    · rw [show pctDecides (config o) e = true from decides] at quiet
      cases quiet
    · have many := chosen.decides
      simp only [pctDecides, strategyDecides, Bool.and_eq_true, decide_eq_true_eq] at many
      refine ⟨by omega, many.1.2, ?_⟩
      rw [chosen.decision]
      have ranks : (pctStrategy config draw).ranks cp e s o = priorityIn id s'.map := by
        funext task
        simp [pctStrategy, pctRanks, ran, priorityIn]
      rw [ranks]

theorem pct_lawful : Lawful (pctStrategy config draw) where
  runs _ _ _ _ ready works := pctHandle_ok config draw works (tracked_pct ready)
  handled _ _ _ _ _ _ _ ready ran := pct_handled ready ran

/-- In every run with PCT its map holds the tasks, its handler runs wherever the remainder by `k` is
defined, and where it chooses, the task of the highest priority is dispatched. -/
theorem pct_behaves (mods : Modules O P) (config : O → PctConfig) (draw : O → UInt64 × O)
    {t : List (Record (Tidset × P))} (wf : WellFormed t)
    (forced : ∀ r ∈ t, r.kind = .recordForce → 0 < r.clk)
    {input : Option (List (Record (Tidset × P)))}
    (source : input = some t ∨ t = [] ∧ input = none) {recording : Bool} {others : O}
    {w : World (Strategic PctState O) P}
    (reached : Reaches (withStrategy mods) (strategyRules (pctStrategy config draw))
      (World.start input (if recording then some [] else none) ⟨pctStart, others⟩) w) :
    Behaves (pctStrategy config draw) mods w :=
  behaves_run pct_lawful (fun _ => rfl) wf forced source reached

def samplePct : Strategy PctState UInt64 := pctStrategy (fun _ => PctRun.sampleConfig) PctRun.counting

theorem pct_behaves_two_tasks : ∃ w, samplePlay samplePct samplePoints = some w ∧
    w.log.map (fun c => c.decision) = [1, 1, 1] ∧ Behaves samplePct drawModules w := by
  obtain ⟨w, played, log⟩ : ∃ w, samplePlay samplePct samplePoints = some w ∧
      w.log.map (fun c => c.decision) = [1, 1, 1] := Option.map_eq_some_iff.mp rfl
  have reached : Reaches (withStrategy drawModules) (strategyRules samplePct)
      (World.start none (if false then some [] else none) ⟨pctStart, 5⟩) w := samplePlay_reaches played
  exact ⟨w, played, log, pct_behaves drawModules _ _ ⟨List.Pairwise.nil, by simp⟩ (by simp)
    (Or.inr ⟨rfl, rfl⟩) reached⟩

end Pct

section Pos

variable (config : O → PosConfig) (accesses : TypeId → Option Bool) (draw : O → UInt64 × O)

def posWorks (config : PosConfig) (st : PosState) : Prop := st.wd = none → config.wdVariable ≠ some 0

/-- POS draws the priorities of the tasks that race with the chosen one again, behind the choice. -/
def posRanks (cp : CapturePoint) (e : Decision) (s : PosState) (o : O) (id : TaskId) : UInt64 :=
  match PosRun.posChoice (config o) accesses draw cp e s o with
  | .ok (map, _) => priorityIn PosTask.priority map id
  | .error _ => 0

def posStrategy : Strategy PosState O where
  start := posStart
  knows s id := (s.map.lookup id).isSome
  works _ s o := posWorks (config o) s
  handle cp e s o := posHandle (config o) accesses draw cp e s o
  decides e o := posDecides (config o) e
  ranks := posRanks config accesses draw

variable {config accesses draw} {cp : CapturePoint} {e : Decision} {s : PosState} {o : O}

theorem tracked_pos (ready : Ready (posStrategy config accesses draw) cp e s) :
    Tracked cp e s.map where
  task := ready.task
  init := fun isInit => by simpa [posStrategy] using ready.init isInit
  known := ready.known
  fini := ready.fini
  tasks := ready.tasks
  members := ready.members

theorem posOnce_ok {c : PosConfig} {wd : Option (UInt64 × UInt64)}
    (divisor : wd = none → c.wdVariable ≠ some 0) : ∃ wd', posOnce c wd = .ok wd' := by
  cases wd with
  | some wd => exact ⟨wd, rfl⟩
  | none =>
      have nonzero : (c.wdVariable.getD 10 != 0) = true := by
        cases set : c.wdVariable with
        | none => decide
        | some k =>
            simp only [Option.getD_some, bne_iff_ne, ne_eq]
            rintro rfl
            exact divisor rfl set
      simp [posOnce, nonzero]

theorem posUpdate_ok {G : Type} (prngNext : G → UInt64 × G) (wd : UInt64 × UInt64)
    (access : UInt64 × Bool) (task : cp.id ≠ noTask) (map : Tidmap PosTask) (g : G) :
    ∃ map' g', posUpdate prngNext wd cp access map g = .ok (map', g') := by
  have task : (cp.id != noTask) = true := by simpa using task
  unfold posUpdate
  simp only [tidmapFind, task, check_true, ok_bind]
  cases found : map.lookup cp.id with
  | some item =>
      dsimp only
      split_ifs <;> exact ⟨_, _, rfl⟩
  | none =>
      dsimp only
      split_ifs
      · exact ⟨_, _, rfl⟩
      · simp [tidmapRegister, task, found]

theorem resetRaces_ok {G : Type} (prngNext : G → UInt64 × G) {id : TaskId} {map : Tidmap PosTask}
    (task : id ≠ noTask) (known : (map.lookup id).isSome) (g : G) :
    ∃ map' g', resetRaces prngNext id map g = .ok (map', g') := by
  have task : (id != noTask) = true := by simpa using task
  obtain ⟨item, found⟩ := Option.isSome_iff_exists.mp known
  unfold resetRaces
  simp only [tidmapFind, task, check_true, ok_bind, found]
  split_ifs <;> exact ⟨_, _, rfl⟩

theorem posHandle_ok (config : O → PosConfig) (accesses : TypeId → Option Bool)
    (draw : O → UInt64 × O) (works : posWorks (config o) s) (tracked : Tracked cp e s.map) :
    ∃ result, posHandle (config o) accesses draw cp e s o = .ok result := by
  obtain ⟨wd, warm⟩ := posOnce_ok works
  obtain ⟨map, g, lived⟩ := taskLifecycle_ok (freshTask draw 0 false) tracked.life o
  have members := Lived.members tracked (taskLifecycle_cases lived)
  unfold posHandle
  rw [warm, ok_bind]
  by_cases skipped : e.skip = true
  · rw [if_pos skipped]
    exact ⟨_, rfl⟩
  · rw [if_neg skipped, lived, ok_bind]
    dsimp only
    by_cases quiet : (!posDecides (config o) e) = true
    · rw [if_pos quiet]
      exact ⟨_, rfl⟩
    · rw [if_neg quiet]
      obtain ⟨map₂, g₂, updated⟩ := posUpdate_ok draw wd
        (posAccess accesses cp) tracked.task map g
      have known : ∀ id ∈ e.tset, (map₂.lookup id).isSome := by
        intro id member
        rw [← PosRun.pending_isSome, PosRun.posUpdate_pending updated]
        split_ifs
        · rfl
        · exact (PosRun.pending_isSome id).trans (members id member)
      have many : 0 < e.tset.size := by
        simp only [Bool.not_eq_true, Bool.not_eq_false', posDecides, strategyDecides,
          Bool.and_eq_true, decide_eq_true_eq] at quiet
        omega
      have chosen := (Tidset.best_sort (priorityIn PosTask.priority map₂) many).1
      obtain ⟨map₃, g₃, reset⟩ := resetRaces_ok draw
        (fun none => tracked.tasks (none ▸ chosen)) (known _ chosen) g₂
      rw [updated, ok_bind]
      dsimp only
      rw [prioritySort_eq tracked.tasks known, ok_bind, reset, ok_bind]
      exact ⟨_, rfl⟩

theorem pos_handled (ready : Ready (posStrategy config accesses draw) cp e s) {e' : Decision}
    {s' : PosState} {o' : O} (ran : posHandle (config o) accesses draw cp e s o = .ok (e', s', o')) :
    Handled (posStrategy config accesses draw) cp e s o e' s' := by
  have tracked := tracked_pos ready
  have moved := fun id => PosRun.posHandle_pending ran id rfl
  constructor
  case captured =>
    change (s'.map.lookup cp.id).isSome = _
    rw [← PosRun.pending_isSome, moved]
    by_cases isFini : cp.typeId = eventTaskFini
    · simp [ready.runs, isFini]
    · have item : cp.typeId ≠ eventTaskInit → (PosRun.pending s.map cp.id).isSome := by
        intro notInit
        rw [PosRun.pending_isSome]
        exact tracked.known notInit
      simp only [ready.runs, isFini, ne_eq, not_true_eq_false, Bool.false_eq_true, or_self, if_false]
      split_ifs with _ isInit
      · simp [isFini]
      · simp [isFini]
      · simp [isFini, item isInit]
  case others =>
    intro id other
    change (s'.map.lookup id).isSome = (s.map.lookup id).isSome
    rw [← PosRun.pending_isSome, moved, if_pos (Or.inl other), PosRun.pending_isSome]
  case quiet =>
    intro quiet
    rcases PosRun.posHandle_cases ran with ⟨_, same, _⟩ | ⟨_, _, _, _, ⟨_, same, _⟩ | ⟨chosen, _⟩⟩
    · exact same
    · exact same
    · have decides := chosen.decides
      rw [show posDecides (config o) e = false from quiet] at decides
      cases decides
  case chooses =>
    intro decides
    have decides : posDecides (config o) e = true := decides
    rcases PosRun.posHandle_cases ran with ⟨skipped, _⟩ | ⟨_, _, _, _, ⟨quiet, _⟩ | ⟨chosen, _⟩⟩
    · rw [ready.runs] at skipped
      cases skipped
    · rw [decides] at quiet
      cases quiet
    · obtain ⟨map, g₁, chose, _, decision, _⟩ := chosen.choice
      simp only [posDecides, strategyDecides, Bool.and_eq_true, decide_eq_true_eq] at decides
      refine ⟨by omega, decides.2, ?_⟩
      have ranks : (posStrategy config accesses draw).ranks cp e s o =
          priorityIn PosTask.priority map := by
        funext task
        simp [posStrategy, posRanks, chose]
      rw [ranks]
      exact decision

theorem pos_lawful : Lawful (posStrategy config accesses draw) where
  runs _ _ _ _ ready works := posHandle_ok config accesses draw works (tracked_pos ready)
  handled _ _ _ _ _ _ _ ready ran := pos_handled ready ran

/-- In every run with POS its map holds the tasks, its handler runs unless the threshold is divided
by zero, and where it chooses, the task of the highest priority is dispatched. -/
theorem pos_behaves (mods : Modules O P) (config : O → PosConfig)
    (accesses : TypeId → Option Bool) (draw : O → UInt64 × O)
    {t : List (Record (Tidset × P))} (wf : WellFormed t)
    (forced : ∀ r ∈ t, r.kind = .recordForce → 0 < r.clk)
    {input : Option (List (Record (Tidset × P)))}
    (source : input = some t ∨ t = [] ∧ input = none) {recording : Bool} {others : O}
    {w : World (Strategic PosState O) P}
    (reached : Reaches (withStrategy mods) (strategyRules (posStrategy config accesses draw))
      (World.start input (if recording then some [] else none) ⟨posStart, others⟩) w) :
    Behaves (posStrategy config accesses draw) mods w :=
  behaves_run pos_lawful (fun _ => rfl) wf forced source reached

def samplePos : Strategy PosState UInt64 :=
  posStrategy (fun _ => ⟨true, "pos", 10, none⟩) (fun _ => some true) PctRun.counting

theorem pos_behaves_two_tasks : ∃ w, samplePlay samplePos samplePoints = some w ∧
    w.log.map (fun c => c.decision) = [1, 1, 1] ∧ Behaves samplePos drawModules w := by
  obtain ⟨w, played, log⟩ : ∃ w, samplePlay samplePos samplePoints = some w ∧
      w.log.map (fun c => c.decision) = [1, 1, 1] := Option.map_eq_some_iff.mp rfl
  have reached : Reaches (withStrategy drawModules) (strategyRules samplePos)
      (World.start none (if false then some [] else none) ⟨posStart, 5⟩) w := samplePlay_reaches played
  exact ⟨w, played, log, pos_behaves drawModules _ _ _ ⟨List.Pairwise.nil, by simp⟩ (by simp)
    (Or.inr ⟨rfl, rfl⟩) reached⟩

end Pos

end Lotto.Strategies
