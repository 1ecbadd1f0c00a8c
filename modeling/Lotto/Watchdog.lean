import Lotto.Library.Repeats
import Lotto.Sequencer

namespace Lotto.Watchdog

open Library.FaultRun Library.Repeats

section Handler

def chainIngressAfter : Nat := 11

inductive EventKind where
  | atomic | plain | yield | other
  deriving DecidableEq, Repr

structure WatchdogConfig where
  enabled : Bool
  budget : UInt64
  kinds : TypeId → EventKind

structure WatchdogState where
  id : TaskId
  ticks : UInt64
  deriving DecidableEq, Repr

def watchdogStart : WatchdogState := ⟨0, 0⟩

variable {G : Type} (prngNext : G → UInt64 × G)

def prngRange (min max : UInt64) (g : G) : Except Fault (UInt64 × G) := do
  check (decide (max > min)) .prngRange
  let (v, g) := prngNext g
  .ok (min + v % (max - min), g)

def watchdogReset (config : WatchdogConfig) (id : TaskId) (g : G) :
    Except Fault (WatchdogState × G) := do
  let (ticks, g) ← prngRange prngNext (config.budget / 2) config.budget g
  .ok (⟨id, ticks⟩, g)

def watchdogOk (config : WatchdogConfig) (id : TaskId) (st : WatchdogState) (g : G) :
    Except Fault (Bool × WatchdogState × G) := do
  if id ≠ st.id then
    let (st, g) ← watchdogReset prngNext config id g
    .ok (true, st, g)
  else
    let ticks := st.ticks - 1
    if ticks = 0 then
      let (st, g) ← watchdogReset prngNext config id g
      .ok (false, st, g)
    else .ok (true, { st with ticks }, g)

def watched (config : WatchdogConfig) (cp : CapturePoint) (e : Decision) : Bool :=
  config.enabled && !e.skip && !e.readonly &&
    match config.kinds cp.typeId with
    | .atomic => cp.chainId != chainIngressAfter
    | .plain | .yield => true
    | .other => false

def interrupt (cp : CapturePoint) (e : Decision) : Decision :=
  { e with
    tset := e.tset.remove cp.id
    reason := if e.isChpt then e.reason else .watchdog
    isChpt := true
    selector := .random }

def watchdogHandle (config : WatchdogConfig) (cp : CapturePoint) (e : Decision)
    (st : WatchdogState) (g : G) : Except Fault (Decision × WatchdogState × G) := do
  check (cp.id != noTask) .watchdogNoTask
  if watched config cp e then
    let (ok, st, g) ← watchdogOk prngNext config cp.id st g
    .ok (if ok then e else interrupt cp e, st, g)
  else .ok (e, st, g)

end Handler

section Runs

variable {G : Type} (prngNext : G → UInt64 × G)

/-- A run of the handler over captures with the decisions that reach it. -/
def watchdogRun (config : WatchdogConfig) : List (CapturePoint × Decision) → WatchdogState → G →
    Except Fault (List Decision)
  | [], _, _ => .ok []
  | (cp, e) :: captures, st, g => do
      let (e, st, g) ← watchdogHandle prngNext config cp e st g
      let es ← watchdogRun config captures st g
      .ok (e :: es)

/-- The decisions of a run as a log of its watched captures, newest first: the task and whether it
is interrupted. The others keep their decision. -/
inductive Logged (config : WatchdogConfig) :
    List (CapturePoint × Decision) → List Decision → List (TaskId × Bool) → Prop where
  | nil : Logged config [] [] []
  | watched {captures : List (CapturePoint × Decision)} {es : List Decision}
      {log : List (TaskId × Bool)} {cp : CapturePoint} {e : Decision} (fired : Bool)
      (logged : Logged config captures es log) (here : watched config cp e = true) :
      Logged config (captures ++ [(cp, e)]) (es ++ [if fired then interrupt cp e else e])
        ((cp.id, fired) :: log)
  | ignored {captures : List (CapturePoint × Decision)} {es : List Decision}
      {log : List (TaskId × Bool)} {cp : CapturePoint} {e : Decision}
      (logged : Logged config captures es log) (here : watched config cp e = false) :
      Logged config (captures ++ [(cp, e)]) (es ++ [e]) log

/-- No task has as many watched captures in a row as the budget says without an interrupt, and an
interrupt comes no earlier than after half of them. -/
structure Timely (budget : Nat) (log : List (TaskId × Bool)) : Prop where
  bounded : ∀ id, ¬List.replicate budget (id, false) <:+: log
  patient : ∀ newer id older, log = newer ++ (id, true) :: older →
    List.replicate (budget / 2 - 1) (id, false) <+: older

end Runs

variable {G : Type} (prngNext : G → UInt64 × G) {config : WatchdogConfig} {st : WatchdogState}
  {log : List (TaskId × Bool)} {id : TaskId} {cp : CapturePoint} {e : Decision}

section Draws

theorem prngRange_ok {min max : UInt64} (range : min < max) (g : G) :
    ∃ v g', prngRange prngNext min max g = .ok (v, g') ∧ min ≤ v ∧ v < max := by
  have some : decide (max > min) = true := decide_eq_true range
  refine ⟨_, _, by rw [prngRange, some, check_true, ok_bind], ?_⟩
  rw [UInt64.lt_iff_toNat_lt] at range
  have width : (max - min).toNat = max.toNat - min.toNat :=
    UInt64.toNat_sub_of_le _ _ (UInt64.le_iff_toNat_le.mpr (Nat.le_of_lt range))
  have low := Nat.mod_lt (prngNext g).1.toNat (show 0 < (max - min).toNat by omega)
  have limit := max.toNat_lt
  rw [UInt64.le_iff_toNat_le, UInt64.lt_iff_toNat_lt, UInt64.toNat_add, UInt64.toNat_mod]
  omega

theorem half_toNat (budget : UInt64) : (budget / 2).toNat = budget.toNat / 2 := by
  rw [UInt64.toNat_div]
  rfl

theorem watchdogReset_ok (some : 0 < config.budget.toNat) (id : TaskId) (g : G) :
    ∃ ticks g', watchdogReset prngNext config id g = .ok (⟨id, ticks⟩, g') ∧
      config.budget.toNat / 2 ≤ ticks.toNat ∧ ticks.toNat < config.budget.toNat := by
  have half := half_toNat config.budget
  obtain ⟨ticks, g', drawn, low, high⟩ := prngRange_ok prngNext
    (show config.budget / 2 < config.budget by rw [UInt64.lt_iff_toNat_lt, half]; omega) g
  rw [UInt64.le_iff_toNat_le, half] at low
  exact ⟨ticks, g', by rw [watchdogReset, drawn, ok_bind], low, UInt64.lt_iff_toNat_lt.mp high⟩

end Draws

section Budget

/-- The ticks that are left and the uninterrupted captures of the task make up what was drawn. -/
def Counts (config : WatchdogConfig) (st : WatchdogState) (log : List (TaskId × Bool)) : Prop :=
  log = [] ∧ st.id = noTask ∨ ∃ m, Streak (st.id, false) m log ∧
    log.head?.map Prod.fst = some st.id ∧ 0 < st.ticks.toNat ∧
    config.budget.toNat / 2 ≤ m + st.ticks.toNat ∧ m + st.ticks.toNat ≤ config.budget.toNat

theorem watchdogOk_ok (enough : 2 ≤ config.budget.toNat) (task : id ≠ noTask)
    (counts : Counts config st log) (g : G) :
    ∃ ok st' g', watchdogOk prngNext config id st g = .ok (ok, st', g') ∧
      Counts config st' ((id, !ok) :: log) ∧ st'.id = id ∧
      (ok = false → List.replicate (config.budget.toNat / 2 - 1) (id, false) <+: log) := by
  obtain ⟨ticks, g', drawn, low, high⟩ :=
    watchdogReset_ok prngNext (by omega : 0 < config.budget.toNat) id g
  by_cases other : id ≠ st.id
  · refine ⟨true, ⟨id, ticks⟩, g', ?_, .inr ⟨1, Streak.first ?_, rfl, ?_⟩, rfl, by simp⟩
    · rw [watchdogOk, if_pos other, drawn, ok_bind]
    · rcases counts with ⟨rfl, -⟩ | ⟨m, -, newest, -⟩
      · simp
      · intro same
        change log.head? = some (id, false) at same
        rw [same] at newest
        exact other (Option.some.inj newest)
    · change 0 < ticks.toNat ∧ _ ≤ 1 + ticks.toNat ∧ 1 + ticks.toNat ≤ _
      omega
  · rw [not_not] at other
    obtain ⟨m, streak, newest, left, enough', room⟩ := counts.resolve_left fun start =>
      task (other.trans start.2)
    have one : (st.ticks - 1).toNat = st.ticks.toNat - 1 :=
      UInt64.toNat_sub_of_le _ _ (UInt64.le_iff_toNat_le.mpr (by change 1 ≤ _; omega))
    by_cases last : st.ticks - 1 = 0
    · have empty : st.ticks.toNat - 1 = 0 := by
        rw [← one, last]
        rfl
      refine ⟨false, ⟨id, ticks⟩, g', ?_, .inr ⟨0, Streak.broken (by simp) log, rfl, ?_⟩, rfl, ?_⟩
      · rw [watchdogOk, if_neg (by simpa using other)]
        simp only [last, if_true, drawn, ok_bind]
      · change 0 < ticks.toNat ∧ _ ≤ 0 + ticks.toNat ∧ 0 + ticks.toNat ≤ _
        omega
      · intro _
        rw [other]
        exact streak.front_iff.mpr (by omega)
    · have more : st.ticks.toNat - 1 ≠ 0 := by
        rw [← one]
        exact fun zero => last (UInt64.toNat_inj.mp zero)
      refine ⟨true, { st with ticks := st.ticks - 1 }, g, ?_, .inr ⟨m + 1, ?_, ?_, ?_⟩,
        other.symm, by simp⟩
      · rw [watchdogOk, if_neg (by simpa using other)]
        simp only [last, if_false]
      · rw [other]
        exact streak.more
      · rw [other]
        rfl
      · change 0 < (st.ticks - 1).toNat ∧ _ ≤ m + 1 + (st.ticks - 1).toNat ∧
          m + 1 + (st.ticks - 1).toNat ≤ _
        omega

theorem timely_nil (some : 0 < n) : Timely n [] where
  bounded := by
    intro id found
    rw [List.infix_nil] at found
    simp at found
    omega
  patient := by simp

theorem Timely.push (timely : Timely config.budget.toNat log) {ok : Bool}
    (enough : 2 ≤ config.budget.toNat) (same : st.id = id)
    (counts : Counts config st ((id, !ok) :: log))
    (late : ok = false → List.replicate (config.budget.toNat / 2 - 1) (id, false) <+: log) :
    Timely config.budget.toNat ((id, !ok) :: log) where
  bounded := by
    intro other
    by_cases own : (other, false) = (id, !ok)
    · obtain ⟨m, streak, -, left, -, room⟩ := counts.resolve_left (by simp)
      obtain rfl : other = id := congrArg Prod.fst own
      rw [same] at streak
      exact streak.keeps (by omega) (timely.bounded other)
    · exact (Streak.broken own log).keeps (by omega) (timely.bounded other)
  patient := by
    intro newer other older split
    cases newer with
    | nil =>
        obtain ⟨head, rfl⟩ := List.cons.inj split
        obtain ⟨rfl, fired⟩ := Prod.mk.inj head
        exact late (by simpa using fired)
    | cons first newer => exact timely.patient newer other older (List.cons.inj split).2

end Budget

section Run

theorem watchdogHandle_ignored (task : cp.id ≠ noTask) (here : watched config cp e = false) (g : G) :
    watchdogHandle prngNext config cp e st g = .ok (e, st, g) := by
  rw [watchdogHandle, bne_iff_ne.mpr task, check_true, ok_bind, here]
  rfl

theorem watchdogHandle_watched {ok : Bool} {st' : WatchdogState} {g g' : G} (task : cp.id ≠ noTask)
    (here : watched config cp e = true)
    (asked : watchdogOk prngNext config cp.id st g = .ok (ok, st', g')) :
    watchdogHandle prngNext config cp e st g =
      .ok (if !ok then interrupt cp e else e, st', g') := by
  rw [watchdogHandle, bne_iff_ne.mpr task, check_true, ok_bind, here, if_pos rfl, asked, ok_bind]
  cases ok <;> rfl

theorem watchdogRun_timely (enough : 2 ≤ config.budget.toNat)
    {past : List (CapturePoint × Decision)} {es : List Decision}
    (captures : List (CapturePoint × Decision)) (tasks : ∀ c ∈ captures, c.1.id ≠ noTask)
    (logged : Logged config past es log) (counts : Counts config st log)
    (timely : Timely config.budget.toNat log) (g : G) :
    ∃ es' log', watchdogRun prngNext config captures st g = .ok es' ∧
      Logged config (past ++ captures) (es ++ es') log' ∧ Timely config.budget.toNat log' := by
  induction captures generalizing past es log st g with
  | nil => exact ⟨[], log, rfl, by simpa using logged, timely⟩
  | cons capture captures ih =>
      obtain ⟨cp, e⟩ := capture
      have task := tasks (cp, e) List.mem_cons_self
      have rest := fun c member => tasks c (List.mem_cons_of_mem (cp, e) member)
      cases here : watched config cp e with
      | false =>
          obtain ⟨es', log', ran, logged', timely'⟩ := ih rest (logged.ignored here) counts timely g
          refine ⟨e :: es', log', ?_, by simpa using logged', timely'⟩
          simp only [watchdogRun, watchdogHandle_ignored prngNext task here, ok_bind, ran]
      | true =>
          obtain ⟨ok, st', g', asked, counts', same, late⟩ :=
            watchdogOk_ok prngNext enough task counts g
          obtain ⟨es', log', ran, logged', timely'⟩ := ih rest (logged.watched (!ok) here) counts'
            (timely.push enough same counts' late) g'
          refine ⟨(if !ok then interrupt cp e else e) :: es', log', ?_, by simpa using logged', timely'⟩
          rw [watchdogRun, watchdogHandle_watched prngNext task here asked, ok_bind]
          simp only [ran, ok_bind]

/-- With a budget of 1 the ticks are drawn as 0 and have to wrap around before they run out. -/
theorem watchdogOk_one (id : TaskId) (one : config.budget = 1) {n : Nat} (short : n + 1 < UInt64.size)
    (far : id ≠ st.id ∨ st.ticks = 0 ∨ n + 1 < st.ticks.toNat) (g : G) :
    ∃ st' g', watchdogOk prngNext config id st g = .ok (true, st', g') ∧
      (st'.ticks = 0 ∨ n < st'.ticks.toNat) := by
  have some : 0 < config.budget.toNat := by
    rw [one]
    decide
  rw [UInt64.size] at short
  obtain ⟨ticks, g', drawn, -, high⟩ := watchdogReset_ok prngNext some id g
  by_cases other : id ≠ st.id
  · refine ⟨⟨id, ticks⟩, g', by rw [watchdogOk, if_pos other, drawn, ok_bind], .inl ?_⟩
    apply UInt64.toNat_inj.mp
    rw [one] at high
    change ticks.toNat = 0
    change ticks.toNat < 1 at high
    omega
  · have value : (st.ticks - 1).toNat = (2 ^ 64 - 1 + st.ticks.toNat) % 2 ^ 64 :=
      UInt64.toNat_sub _ _
    have limit := st.ticks.toNat_lt
    have left : n < (st.ticks - 1).toNat := by
      rcases far with differs | zero | high
      · exact absurd differs other
      · rw [value, zero]
        change n < (2 ^ 64 - 1 + 0) % 2 ^ 64
        omega
      · omega
    have more : st.ticks - 1 ≠ 0 := by
      intro zero
      rw [zero] at left
      exact absurd left (Nat.not_lt_zero n)
    refine ⟨{ st with ticks := st.ticks - 1 }, g, ?_, .inr left⟩
    rw [watchdogOk, if_neg other]
    simp only [more, if_false]

theorem watchdogRun_one (one : config.budget = 1) (captures : List (CapturePoint × Decision))
    (tasks : ∀ c ∈ captures, c.1.id ≠ noTask) (short : captures.length < UInt64.size)
    (far : st.id = noTask ∨ st.ticks = 0 ∨ captures.length < st.ticks.toNat) (g : G) :
    watchdogRun prngNext config captures st g = .ok (captures.map Prod.snd) := by
  induction captures generalizing st g with
  | nil => rfl
  | cons capture captures ih =>
      obtain ⟨cp, e⟩ := capture
      have task := tasks (cp, e) List.mem_cons_self
      have rest := fun c member => tasks c (List.mem_cons_of_mem (cp, e) member)
      rw [List.length_cons] at short far
      cases here : watched config cp e with
      | false =>
          have done := ih rest (by omega) (far.imp_right fun left => left.imp_right (by omega)) g
          rw [watchdogRun, watchdogHandle_ignored prngNext task here, ok_bind]
          simp only [done, ok_bind]
          rfl
      | true =>
          obtain ⟨st', g', asked, far'⟩ := watchdogOk_one prngNext cp.id one
            short (far.imp_left fun start => by rw [start]; exact task) g
          have done := ih rest (by omega) (.inr far') g'
          rw [watchdogRun, watchdogHandle_watched prngNext task here asked, ok_bind]
          simp only [done, ok_bind]
          rfl

theorem watchdogRun_zero (zero : config.budget = 0) (captures : List (CapturePoint × Decision))
    (tasks : ∀ c ∈ captures, c.1.id ≠ noTask) (some : ∃ c ∈ captures, watched config c.1 c.2 = true)
    (g : G) : watchdogRun prngNext config captures watchdogStart g = .error .prngRange := by
  induction captures with
  | nil => simp at some
  | cons capture captures ih =>
      obtain ⟨cp, e⟩ := capture
      have task := tasks (cp, e) List.mem_cons_self
      have rest := fun c member => tasks c (List.mem_cons_of_mem (cp, e) member)
      cases here : watched config cp e with
      | false =>
          have later : ∃ c ∈ captures, watched config c.1 c.2 = true := by
            simpa [here] using some
          rw [watchdogRun, watchdogHandle_ignored prngNext task here, ok_bind]
          simp only [ih rest later, error_bind]
      | true =>
          have drawn : watchdogReset prngNext config cp.id g = .error .prngRange := by
            rw [watchdogReset, prngRange, zero]
            rfl
          have asked : watchdogOk prngNext config cp.id watchdogStart g = .error .prngRange := by
            rw [watchdogOk, if_pos (show cp.id ≠ watchdogStart.id from task), drawn]
            rfl
          rw [watchdogRun, watchdogHandle, bne_iff_ne.mpr task, check_true, ok_bind, here,
            if_pos rfl, asked]
          rfl

end Run

/-- With a budget of at least 2 no task has as many watched captures in a row as the budget says
without an interrupt, and none is interrupted before half of them. With a budget of 1 the watchdog
never interrupts, and with a budget of 0 its first use fails. -/
theorem watchdog_interrupts (prngNext : G → UInt64 × G) (config : WatchdogConfig) (g : G)
    (captures : List (CapturePoint × Decision)) (tasks : ∀ c ∈ captures, c.1.id ≠ noTask) :
    (2 ≤ config.budget.toNat → ∃ es log,
      watchdogRun prngNext config captures watchdogStart g = .ok es ∧
        Logged config captures es log ∧ Timely config.budget.toNat log) ∧
      (config.budget = 1 → captures.length < UInt64.size →
        watchdogRun prngNext config captures watchdogStart g = .ok (captures.map Prod.snd)) ∧
      (config.budget = 0 → (∃ c ∈ captures, watched config c.1 c.2 = true) →
        watchdogRun prngNext config captures watchdogStart g = .error .prngRange) := by
  refine ⟨?_, ?_, ?_⟩
  · intro enough
    exact watchdogRun_timely prngNext enough captures tasks .nil (.inl ⟨rfl, rfl⟩) (timely_nil (by omega)) g
  · exact fun one short => watchdogRun_one prngNext one captures tasks short (.inl rfl) g
  · exact fun zero some => watchdogRun_zero prngNext zero captures tasks some g

section Sample

def sampleCapture : CapturePoint × Decision := (plainPoint 7 1 0, plainDecision .empty)

def sampleConfig : WatchdogConfig := ⟨true, 3, fun _ => .plain⟩

end Sample

theorem watchdog_interrupts_three : ∃ es log,
    watchdogRun (fun n : Nat => (n.toUInt64, n + 1)) sampleConfig
        (List.replicate 3 sampleCapture) watchdogStart 0 = .ok es ∧
      Logged sampleConfig (List.replicate 3 sampleCapture) es log ∧ Timely 3 log :=
  (watchdog_interrupts (fun n : Nat => (n.toUInt64, n + 1)) sampleConfig 0
    (List.replicate 3 sampleCapture) (by decide)).1 (by decide)

end Lotto.Watchdog
