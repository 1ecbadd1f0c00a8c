import Lotto.Pct

namespace Lotto.PctRun

open Library.FaultRun Library.KeyMap Library.Preference

variable {G : Type} {config : PctConfig} {prngNext : G → UInt64 × G} {cp : CapturePoint}
  {e e' : Decision} {st st' : PctState} {g g' : G}

structure Updated (config : PctConfig) (id : TaskId) (st st' : PctState) : Prop where
  changed : st'.map = st.map ∧ st'.chpts = st.chpts ∨
    ∃ p, st'.map = st.map.replace id p ∧ st'.chpts = st.chpts + 1 ∧ st.chpts < config.chpts

theorem pctUpdate_cases {id : TaskId} {rval : UInt64}
    (updated : pctUpdate config id rval st = .ok st') : Updated config id st st' := by
  unfold pctUpdate at updated
  split_ifs at updated
  · cases updated
    exact ⟨Or.inl ⟨rfl, rfl⟩⟩
  · obtain ⟨change, point, updated⟩ := bind_eq_ok.mp updated
    split_ifs at updated with still left
    · cases updated
      exact ⟨Or.inl ⟨rfl, rfl⟩⟩
    · cases updated
      exact ⟨Or.inr ⟨_, rfl, rfl, left⟩⟩
    · unfold pctIsChangePoint at point
      rw [if_neg left] at point
      cases point
      exact absurd rfl still

theorem Updated.bound {id : TaskId} (updated : Updated config id st st')
    (bound : st.chpts ≤ config.chpts) : st'.chpts ≤ config.chpts := by
  rcases updated.changed with ⟨_, same⟩ | ⟨_, _, more, left⟩
  · rw [same]
    exact bound
  · rw [more]
    have step : (st.chpts + 1).toNat = st.chpts.toNat + 1 := by
      have limit := config.chpts.toNat_lt
      rw [UInt64.toNat_add]
      simp only [UInt64.lt_iff_toNat_lt] at left
      simp
      omega
    simp only [UInt64.lt_iff_toNat_lt, UInt64.le_iff_toNat_le] at left ⊢
    omega

structure Chosen (config : PctConfig) (cp : CapturePoint) (e : Decision) (st : PctState)
    (map : Tidmap UInt64) (e' : Decision) (st' : PctState) : Prop where
  decides : pctDecides config e = true
  updated : Updated config cp.id { st with map } st'
  known : ∀ id ∈ e.tset, (st'.map.lookup id).isSome
  decision : e' = chooseFirst e (e.tset.sort (Precedes (priorityIn id st'.map)))

theorem pctInit_cases {map map' : Tidmap UInt64}
    (ran : pctInit prngNext cp e map g = .ok (map', g')) :
    Lived (fun g => (pctPriority (prngNext g).1, (prngNext g).2)) cp map g map' g' ∧
      (cp.typeId ≠ eventTaskFini → (map'.lookup cp.id).isSome) := by
  obtain ⟨⟨map₁, g₁⟩, lived, ran⟩ := bind_eq_ok.mp ran
  by_cases isFini : cp.typeId = eventTaskFini
  · simp only [if_pos isFini] at ran
    cases ran
    exact ⟨taskLifecycle_cases lived, fun notFini => absurd isFini notFini⟩
  · simp only [if_neg isFini] at ran
    obtain ⟨known, found, ran⟩ := bind_eq_ok.mp ran
    obtain ⟨_, _, found⟩ := bind_eq_ok.mp found
    obtain ⟨_, passed, ran⟩ := bind_eq_ok.mp ran
    cases ran
    cases Except.ok.inj found
    exact ⟨taskLifecycle_cases lived, fun _ => (check_ok_iff _ _).mp passed⟩

theorem pctDraw_cases (drawn : pctDraw config prngNext cp st g = .ok (st', g')) :
    Updated config cp.id st st' := by
  unfold pctDraw at drawn
  split_ifs at drawn
  · cases drawn
    exact ⟨Or.inl ⟨rfl, rfl⟩⟩
  · obtain ⟨_, updated, drawn⟩ := bind_eq_ok.mp drawn
    cases drawn
    exact pctUpdate_cases updated

/-- The handler keeps the map in step with the tasks, and chooses or leaves the decision alone. -/
theorem pctHandle_cases (ran : pctHandle config prngNext cp e st g = .ok (e', st', g')) :
    ∃ map g₁, Lived (fun g => (pctPriority (prngNext g).1, (prngNext g).2)) cp st.map g map g₁ ∧
      (pctDecides config e = false ∧ e' = e ∧ st' = { st with map } ∨
        Chosen config cp e st map e' st') := by
  obtain ⟨⟨map, g₁⟩, init, ran⟩ := bind_eq_ok.mp ran
  refine ⟨map, g₁, (pctInit_cases init).1, ?_⟩
  dsimp only at ran
  split_ifs at ran with quiet
  · cases ran
    exact Or.inl ⟨by simpa using quiet, rfl, rfl⟩
  · obtain ⟨⟨st₂, g₂⟩, drawn, ran⟩ := bind_eq_ok.mp ran
    obtain ⟨tset, sorted, ran⟩ := bind_eq_ok.mp ran
    cases ran
    obtain ⟨known, rfl⟩ := prioritySort_ok sorted
    exact Or.inr ⟨by simpa using quiet, ⟨(pctDraw_cases drawn).changed⟩, known, rfl⟩

structure Round where
  candidates : Tidset
  chosen : TaskId
  map : Tidmap UInt64
  chpts : UInt64

structure Progress (G : Type) where
  log : List Round
  state : PctState
  draws : G

def pctRunStep (config : PctConfig) (prngNext : G → UInt64 × G) (p : Progress G)
    (c : CapturePoint × Decision) : Except Fault (Progress G) := do
  let (e, state, draws) ← pctHandle config prngNext c.1 c.2 p.state p.draws
  let round : Round :=
    { candidates := c.2.tset, chosen := e.tset.get 0, map := state.map, chpts := state.chpts }
  .ok { log := if pctDecides config c.2 then p.log ++ [round] else p.log, state, draws }

/-- `_pct_handle` at the captures of a run, with the decision each of them is given. -/
def pctRun (config : PctConfig) (prngNext : G → UInt64 × G)
    (captures : List (CapturePoint × Decision)) (p : Progress G) : Except Fault (Progress G) :=
  captures.foldlM (pctRunStep config prngNext) p

def preempts (r s : Round) : Bool := s.candidates.has r.chosen && s.chosen != r.chosen

def joins (r s : Round) : Bool := !r.candidates.has s.chosen

def passes (r s : Round) : Bool := decide (r.chpts < s.chpts)

def FreshIds (captures : List (CapturePoint × Decision)) : Prop :=
  captures.Pairwise fun a b => b.1.typeId = eventTaskInit → b.1.id ≠ a.1.id

def Round.Sound (r : Round) : Prop :=
  Best (Precedes (priorityIn id r.map)) r.candidates.tasks r.chosen

/-- Two consecutive rounds: without a change point between them, the candidates that are left
have the priorities they had. -/
structure Consecutive (r s : Round) : Prop where
  first : r.Sound
  second : s.Sound
  grows : r.chpts ≤ s.chpts
  kept : r.chpts = s.chpts → ∀ task ∈ r.candidates, task ∈ s.candidates →
    priorityIn id s.map task = priorityIn id r.map task

theorem Consecutive.preempts {r s : Round} (next : Consecutive r s) (preempted : preempts r s = true) :
    passes r s = true ∨ joins r s = true := by
  by_contra neither
  rw [not_or, passes, joins] at neither
  obtain ⟨before, stay⟩ := neither
  have same : r.chpts = s.chpts := by
    have grows := next.grows
    simp only [decide_eq_true_eq, UInt64.lt_iff_toNat_lt, UInt64.le_iff_toNat_le,
      ← UInt64.toNat_inj] at *
    omega
  have old : s.chosen ∈ r.candidates := by
    simpa using stay
  simp only [PctRun.preempts, Bool.and_eq_true, Tidset.has_eq_true, bne_iff_ne] at preempted
  obtain ⟨left, other⟩ := preempted
  -- both tasks were candidates and are, with the priorities they had
  have first : Precedes (priorityIn id s.map) r.chosen s.chosen :=
    (next.first.2 _ old).congr (next.kept same _ next.first.1 left) (next.kept same _ old next.second.1)
  exact other (Std.Antisymm.antisymm _ _ (next.second.2 _ left) first)

structure Behind (r : Round) (st : PctState) : Prop where
  sound : r.Sound
  grows : r.chpts ≤ st.chpts
  kept : r.chpts = st.chpts → ∀ task ∈ r.candidates, ∀ p,
    st.map.lookup task = some p → r.map.lookup task = some p

structure Inv (config : PctConfig) (seen : List TaskId) (p : Progress G) : Prop where
  bound : p.state.chpts ≤ config.chpts
  bounds : ∀ r ∈ p.log, r.chpts ≤ config.chpts
  sound : ∀ r ∈ p.log, r.Sound
  known : ∀ task, (p.state.map.lookup task).isSome → task ∈ seen
  members : ∀ r ∈ p.log, ∀ task ∈ r.candidates, task ∈ seen
  chain : p.log.IsChain Consecutive
  last : ∀ r, p.log.getLast? = some r → Behind r p.state

/-- The lifecycle of the captured task does not touch the priorities of the last candidates. -/
theorem Behind.lived {r : Round} {seen : List TaskId} {map : Tidmap UInt64} {g₁ : G}
    {fresh : G → UInt64 × G} (behind : Behind r st) (members : ∀ task ∈ r.candidates, task ∈ seen)
    (new : cp.typeId = eventTaskInit → cp.id ∉ seen) (lived : Lived fresh cp st.map g map g₁) :
    Behind r { st with map } := by
  refine ⟨behind.sound, behind.grows, ?_⟩
  intro same task member p found
  by_cases captured : task = cp.id
  · subst captured
    cases lived with
    | fini => simp at found
    | init isInit _ => exact absurd (members _ member) (new isInit)
    | other => exact behind.kept same _ member p found
  · rw [lived.lookup_ne captured] at found
    exact behind.kept same task member p found

theorem lived_seen {seen : List TaskId} {map map' : Tidmap UInt64} {fresh : G → UInt64 × G} {g₁ : G}
    (lived : Lived fresh cp map g map' g₁) (known : ∀ task, (map.lookup task).isSome → task ∈ seen)
    {task : TaskId} (found : (map'.lookup task).isSome) : task ∈ cp.id :: seen := by
  by_cases captured : task = cp.id
  · rw [captured]
    exact List.mem_cons_self
  · rw [lived.lookup_ne captured] at found
    exact List.mem_cons_of_mem _ (known task found)

theorem Updated.lookup {task : TaskId} (updated : Updated config task st st') (other : TaskId) :
    (st'.map.lookup other).isSome = (st.map.lookup other).isSome := by
  rcases updated.changed with ⟨same, _⟩ | ⟨p, more, _⟩
  · rw [same]
  · rw [more, Bool.eq_iff_iff, AList.lookup_isSome, AList.lookup_isSome, AList.mem_replace]

theorem priorityIn_eq {map : Tidmap UInt64} {task : TaskId} {p : UInt64}
    (found : map.lookup task = some p) : priorityIn id map task = p := by
  simp [priorityIn, found]

theorem Chosen.round {map : Tidmap UInt64} (chosen : Chosen config cp e st map e' st') :
    let s : Round :=
      { candidates := e.tset, chosen := e'.tset.get 0, map := st'.map, chpts := st'.chpts }
    Behind s st' ∧ ∀ r, Behind r { st with map } → Consecutive r s := by
  intro s
  have many : 0 < e.tset.size := by
    have decides := chosen.decides
    simp only [pctDecides, strategyDecides, Bool.and_eq_true, decide_eq_true_eq] at decides
    omega
  have sound : s.Sound := by
    show Best _ e.tset.tasks (e'.tset.get 0)
    rw [chosen.decision]
    exact Tidset.best_sort _ many
  refine ⟨⟨sound, UInt64.le_refl _, fun _ _ _ _ found => found⟩, ?_⟩
  intro r behind
  have grows : ({ st with map } : PctState).chpts ≤ st'.chpts := by
    rcases chosen.updated.changed with ⟨_, same⟩ | ⟨_, _, more, left⟩
    · rw [same]
      exact UInt64.le_refl _
    · rw [more]
      simp only [UInt64.lt_iff_toNat_lt, UInt64.le_iff_toNat_le, UInt64.toNat_add] at *
      have limit := config.chpts.toNat_lt
      simp
      omega
  refine ⟨behind.sound, sound, UInt64.le_trans behind.grows grows, ?_⟩
  intro same task member candidate
  have still : st'.map = map := by
    rcases chosen.updated.changed with ⟨still, _⟩ | ⟨_, _, more, left⟩
    · exact still
    · have low := behind.grows
      have limit := config.chpts.toNat_lt
      have more' := congrArg UInt64.toNat more
      have same' := congrArg UInt64.toNat same
      simp only [UInt64.lt_iff_toNat_lt, UInt64.le_iff_toNat_le, UInt64.toNat_add] at *
      simp only [s] at same'
      simp at more'
      omega
  obtain ⟨p, found⟩ := Option.isSome_iff_exists.mp (chosen.known task candidate)
  have before : r.map.lookup task = some p := by
    apply behind.kept _ task member
    · rw [← still]
      exact found
    · have low := behind.grows
      have same' : r.chpts = st'.chpts := same
      exact UInt64.le_antisymm low (by rw [same']; exact grows)
  show priorityIn id st'.map task = priorityIn id r.map task
  rw [priorityIn_eq found, priorityIn_eq before]

theorem inv_step {seen : List TaskId} {p p' : Progress G} {c : CapturePoint × Decision}
    (inv : Inv config seen p) (new : c.1.typeId = eventTaskInit → c.1.id ∉ seen)
    (stepped : pctRunStep config prngNext p c = .ok p') : Inv config (c.1.id :: seen) p' := by
  obtain ⟨⟨e', st', g'⟩, ran, stepped⟩ := bind_eq_ok.mp stepped
  cases stepped
  obtain ⟨map, g₁, lived, cases⟩ := pctHandle_cases ran
  have older : ∀ r ∈ p.log, ∀ task ∈ r.candidates, task ∈ c.1.id :: seen :=
    fun r member task candidate => List.mem_cons_of_mem _ (inv.members r member task candidate)
  have last : ∀ r, p.log.getLast? = some r → Behind r { p.state with map } := fun r found =>
    (inv.last r found).lived (inv.members r (List.mem_of_getLast? found)) new lived
  rcases cases with ⟨quiet, rfl, rfl⟩ | chosen
  · simp only [quiet, Bool.false_eq_true, if_false]
    exact ⟨inv.bound, inv.bounds, inv.sound, fun task found => lived_seen lived inv.known found, older, inv.chain, last⟩
  · obtain ⟨behind, follows⟩ := chosen.round
    have bound := chosen.updated.bound inv.bound
    have known : ∀ task, (st'.map.lookup task).isSome → task ∈ c.1.id :: seen := by
      intro task found
      rw [chosen.updated.lookup] at found
      exact lived_seen lived inv.known found
    simp only [chosen.decides, if_true]
    refine ⟨bound, ?_, ?_, known, ?_, ?_, ?_⟩
    · intro r member
      rcases List.mem_append.mp member with old | new
      · exact inv.bounds r old
      · rw [List.mem_singleton.mp new]
        exact bound
    · intro r member
      rcases List.mem_append.mp member with old | new
      · exact inv.sound r old
      · rw [List.mem_singleton.mp new]
        exact behind.sound
    · intro r member
      rcases List.mem_append.mp member with old | new
      · exact older r old
      · rw [List.mem_singleton.mp new]
        exact fun task candidate => known task (chosen.known task candidate)
    · refine List.isChain_append.mpr ⟨inv.chain, List.isChain_singleton _, ?_⟩
      intro r found s single
      cases single
      exact follows r (last r found)
    · intro r found
      rw [List.getLast?_concat] at found
      cases found
      exact behind

theorem inv_run {seen : List TaskId} {captures : List (CapturePoint × Decision)} {p p' : Progress G}
    (inv : Inv config seen p) (fresh : FreshIds captures)
    (new : ∀ c ∈ captures, c.1.typeId = eventTaskInit → c.1.id ∉ seen)
    (ran : pctRun config prngNext captures p = .ok p') : ∃ seen', Inv config seen' p' := by
  induction captures generalizing p seen with
  | nil =>
      cases ran
      exact ⟨seen, inv⟩
  | cons c captures ih =>
      rw [pctRun, List.foldlM_cons] at ran
      obtain ⟨mid, stepped, ran⟩ := bind_eq_ok.mp ran
      obtain ⟨later, fresh⟩ := List.pairwise_cons.mp fresh
      refine ih (inv_step inv (new c List.mem_cons_self) stepped) fresh ?_ ran
      intro d member isInit again
      rcases List.mem_cons.mp again with same | old
      · exact later d member isInit same
      · exact new d (List.mem_cons_of_mem _ member) isInit old

theorem inv_start (config : PctConfig) (draws : G) :
    Inv config [] { log := [], state := pctStart, draws } where
  bound := UInt64.le_iff_toNat_le.mpr (Nat.zero_le _)
  bounds := by simp
  sound := by simp
  known := by simp [pctStart]
  members := by simp
  chain := List.isChain_nil
  last := by simp

/-- Every choice takes the candidate of the highest priority, and the preemptions of a run are paid
for by change points, of which there are no more than the configuration says, and by choices of tasks
that were no candidates before. -/
theorem pct_preemptions_bounded (config : PctConfig) (prngNext : G → UInt64 × G) (draws : G)
    (captures : List (CapturePoint × Decision)) (fresh : FreshIds captures) (p : Progress G)
    (ran : pctRun config prngNext captures { log := [], state := pctStart, draws } = .ok p) :
    (∀ r ∈ p.log, r.Sound) ∧
      countPairs preempts p.log ≤ config.chpts.toNat + countPairs joins p.log := by
  obtain ⟨_, inv⟩ := inv_run (inv_start config draws) fresh (by simp) ran
  refine ⟨inv.sound, ?_⟩
  have paid : countPairs preempts p.log ≤ countPairs passes p.log + countPairs joins p.log :=
    countPairs_le (fun _ _ next preempted => next.preempts preempted) inv.chain
  have points : countPairs passes p.log ≤ config.chpts.toNat := by
    cases log : p.log with
    | nil => simp [countPairs]
    | cons first rounds =>
        have chain := inv.chain
        rw [log] at chain
        have counted := countPairs_counter (p := passes) (fun r : Round => r.chpts.toNat)
          (fun r s next => by
            have grows := next.grows
            rw [UInt64.le_iff_toNat_le] at grows
            cases passed : passes r s with
            | false => simpa using grows
            | true =>
                simp only [passes, decide_eq_true_eq, UInt64.lt_iff_toNat_lt] at passed
                simpa using Nat.succ_le_of_lt passed) chain
        have bounds := inv.bounds
        rw [log] at bounds
        have bound := bounds _ (List.getLast_mem (List.cons_ne_nil first rounds))
        rw [UInt64.le_iff_toNat_le] at bound
        omega
  omega

def sampleConfig : PctConfig := ⟨true, "pct", 10, 9, 1⟩

def counting (g : UInt64) : UInt64 × UInt64 := (g, g + 1)

theorem pct_preemptions_bounded_two_tasks :
    ∃ p, pctRun sampleConfig counting (twoTasks 0 0) { log := [], state := pctStart, draws := 5 } = .ok p ∧
      (∀ r ∈ p.log, r.Sound) ∧ countPairs preempts p.log ≤ 1 + countPairs joins p.log := by
  have runs : (pctRun sampleConfig counting (twoTasks 0 0)
      { log := [], state := pctStart, draws := 5 }).isOk = true := by decide +kernel
  cases ran : pctRun sampleConfig counting (twoTasks 0 0) { log := [], state := pctStart, draws := 5 } with
  | error fault =>
      rw [ran] at runs
      cases runs
  | ok p =>
      exact ⟨p, rfl, pct_preemptions_bounded sampleConfig counting 5 (twoTasks 0 0)
        (by simp [FreshIds, twoTasks, choiceAt, plainPoint, eventTaskInit]) p ran⟩

end Lotto.PctRun
