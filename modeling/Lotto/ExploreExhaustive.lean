import Mathlib.Data.List.Dedup
import Lotto.Library.ChoiceTree
import Lotto.Explore

namespace Lotto.Explore

open Library.FaultRun Library.ChoiceTree

variable {P : Type}

/-- A deterministic program under test: the tasks that are available at each clock and the exit code
of each schedule. -/
abbrev Program := Tree TaskId Int

/-- A record that the recorder writes between two choices, after `n` of them. -/
def Mark (n : Nat) (r : Record P) : Prop :=
  (r.kind = .recordStart ∧ n = 0 ∧ r.clk = 0) ∨ (r.kind = .recordConfig ∧ r.clk = n) ∨
    ((r.kind = .recordInfo ∨ r.kind = .recordOpaque) ∧ r.clk = n + 1)

def Forces (clk : Nat) (task : TaskId) (rs : Trace P) : Prop :=
  rs = [] ∨ ∃ r, rs = [r] ∧ r.kind = .recordForce ∧ r.clk = clk ∧ r.id = task

def Scheduled (clk : Nat) (task : TaskId) (r : Record P) : Prop :=
  r.kind = .recordSched ∧ r.clk = clk ∧ r.id = task

def Typed (r : Record P) : Prop := r.typeId ≠ 0 ∧ r.typeId ≠ eventTaskCreate

/-- The traces of a program that made some choices, clock by clock. A clock with several tasks has a
record with these; the other ones may have a record of an ignored type or none. -/
inductive Recorded (driver : Driver P) (root : Program) :
    List TaskId → Trace P → Program → Prop where
  | start : Recorded driver root [] [] root
  | mark {path : List TaskId} {t : Trace P} {p : Program} {r : Record P}
      (before : Recorded driver root path t p) (mark : Mark path.length r) :
      Recorded driver root path (r :: t) p
  | choice {path tasks : List TaskId} {t force : Trace P} {ready : tasks ≠ []}
      {next : TaskId → Program} {task : TaskId} {r : Record P}
      (before : Recorded driver root path t (.choose tasks ready next)) (member : task ∈ tasks)
      (forces : Forces (path.length + 1) task force)
      (scheduled : Scheduled (path.length + 1) task r) (typed : Typed r)
      (available : ∀ id, id ∈ driver.available r.data ↔ id ∈ tasks) :
      Recorded driver root (path ++ [task]) (r :: (force ++ t)) (next task)
  | only {path tasks : List TaskId} {t force rs : Trace P} {ready : tasks ≠ []}
      {next : TaskId → Program} {task : TaskId}
      (before : Recorded driver root path t (.choose tasks ready next)) (member : task ∈ tasks)
      (alone : ∀ other ∈ tasks, other = task) (forces : Forces (path.length + 1) task force)
      (scheduled : rs = [] ∨ ∃ r, rs = [r] ∧ Scheduled (path.length + 1) task r ∧ ¬ Typed r) :
      Recorded driver root (path ++ [task]) (rs ++ (force ++ t)) (next task)

/-- The trace of a run, with its last record if the run ended. -/
def Traced (driver : Driver P) (root : Program) (path : List TaskId) (trace : Trace P) (p : Program) :
    Prop :=
  ∃ t, Recorded driver root path t p ∧ (trace = t ∨ ∃ r : Record P, r.kind = .recordExit ∧ trace = r :: t)

/-- `execute` runs the program: it follows the trace and the task that its last record forces, goes
on with choices of its own, and records the run. -/
def Follows (driver : Driver P) (root : Program) : Prop :=
  ∀ round path t tasks ready next task, Recorded driver root path t (.choose tasks ready next) →
    task ∈ tasks → ∃ more code output,
      driver.execute round (forced driver.blank (path.length + 1) task :: t) = (code, output) ∧
      Traced driver root (path ++ task :: more) output (.exit code) ∧ code ≠ 130

def unexpected (expectFailure : Bool) (code : Int) : Prop := (code != 0) ≠ expectFailure

section Traces

variable {driver : Driver P} {root p : Program} {path : List TaskId} {t force rs : Trace P}
  {task : TaskId} {clk most : Nat} {r : Record P}

theorem recorded_leads (recorded : Recorded driver root path t p) : Leads root path p := by
  induction recorded with
  | start => exact .here root
  | mark _ _ ih => exact ih
  | choice _ member _ _ _ _ ih => exact leads_snoc ih member
  | only _ member _ _ _ ih => exact leads_snoc ih member

theorem skips_kind (other : r.kind ≠ .recordSched) : skips most r = true := by
  have apart : r.kind.bits &&& Kind.recordSched.bits = 0 := by
    cases kind : r.kind <;> first | exact absurd kind other | decide
  simp [skips, apart]

theorem skips_untyped (untyped : ¬ Typed r) : skips most r = true := by
  have ignored : r.typeId = 0 ∨ r.typeId = eventTaskCreate := by
    by_cases none : r.typeId = 0
    · exact Or.inl none
    · exact Or.inr (not_not.mp fun other => untyped ⟨none, other⟩)
  rcases ignored with ignored | ignored
  · simp [skips, ignored]
  · simp [skips, ignored, typesHas, ignoredTypes]

theorem skips_choice (most : Nat) (scheduled : Scheduled clk task r) (typed : Typed r) (late : clk ≤ most) :
    skips most r = false := by
  obtain ⟨kind, rfl, _⟩ := scheduled
  have bit : ¬ Kind.recordSched.bits = 0 := by decide
  simp [skips, kind, bit, typed.1, typed.2, typesHas, ignoredTypes, late]

theorem last_append (forgets : ∀ r ∈ rs, skips most r = true) :
    getLastRecordSmallerOrEqualThanClock most (rs ++ t) =
      getLastRecordSmallerOrEqualThanClock most t := by
  induction rs with
  | nil => rfl
  | cons r rs ih =>
      rw [List.cons_append, getLastRecordSmallerOrEqualThanClock,
        if_pos (forgets r List.mem_cons_self)]
      exact ih fun r member => forgets r (List.mem_cons_of_mem _ member)

theorem last_length (most : Nat) (t : Trace P) :
    (getLastRecordSmallerOrEqualThanClock most t).length ≤ t.length := by
  induction t with
  | nil => exact Nat.le_refl 0
  | cons r t ih =>
      rw [getLastRecordSmallerOrEqualThanClock]
      split
      · exact Nat.le_succ_of_le ih
      · exact Nat.le_refl _

theorem mark_kind {n : Nat} (mark : Mark n r) : r.kind ≠ .recordSched ∧ r.kind ≠ .recordForce := by
  rcases mark with ⟨kind, _⟩ | ⟨kind, _⟩ | ⟨kind | kind, _⟩ <;> simp [kind]

theorem forces_skips (forces : Forces clk task force) : ∀ r ∈ force, skips most r = true := by
  rcases forces with rfl | ⟨f, rfl, kind, _⟩
  · exact fun r member => absurd member List.not_mem_nil
  · intro r member
    obtain rfl := List.mem_singleton.mp member
    exact skips_kind (by simp [kind])

theorem drop_recorded (recorded : Recorded driver root path t p) (later : path.length < clk) :
    dropScheduled clk t = t := by
  induction recorded with
  | start => rfl
  | mark _ mark =>
      obtain ⟨sched, force⟩ := mark_kind mark
      rw [dropScheduled, if_neg]
      rintro ⟨_, bits⟩
      apply bits
      revert sched force
      generalize Record.kind _ = kind
      cases kind <;> decide
  | choice _ _ _ scheduled =>
      rw [List.length_append, List.length_singleton] at later
      rw [dropScheduled, if_neg]
      rintro ⟨same, _⟩
      have now := scheduled.2.1
      omega
  | only _ _ _ forces scheduled ih =>
      rw [List.length_append, List.length_singleton] at later
      rcases scheduled with rfl | ⟨r, rfl, scheduled, _⟩
      · rcases forces with rfl | ⟨r, rfl, _, now, _⟩
        · exact ih (by omega)
        · rw [List.nil_append, List.singleton_append, dropScheduled, if_neg]
          rintro ⟨same, _⟩
          omega
      · rw [List.singleton_append, dropScheduled, if_neg]
        rintro ⟨same, _⟩
        have now := scheduled.2.1
        omega

end Traces

section Loops

variable {driver : Driver P} {root p : Program} {path tasks : List TaskId} {t : Trace P}
  {ready : tasks ≠ []} {next : TaskId → Program} {expectFailure : Bool} {least most fuel : Nat}
  {explore explore' : Trace P → Nat → Except Fault (Int × Nat)} {s s' : Search P}

/-- A call answers whether some schedule that deviates from the trace late enough ends the search. -/
def Answers (driver : Driver P) (root : Program) (expectFailure : Bool) (least : Nat)
    (explore : Trace P → Nat → Except Fault (Int × Nat)) : Prop :=
  ∀ path t p round, Traced driver root path t p → ∃ err rounds,
    explore t round = .ok (err, rounds) ∧
      (unexpected expectFailure err ↔ Found (unexpected expectFailure) root path least)

theorem goes_on {err : Int} (calm : ¬ unexpected expectFailure err) :
    ((!expectFailure && err == 0) || (expectFailure && err != 0)) = true := by
  unfold unexpected at calm
  cases expectFailure <;> simp_all

theorem breaks_iff {code : Int} (ran : code ≠ 130) :
    ((expectFailure != (code != 0)) || (expectFailure && code == 130)) = true ↔
      unexpected expectFailure code := by
  have other : (code == 130) = false := beq_eq_false_iff_ne.mpr ran
  rw [other, Bool.and_false, Bool.or_false, bne_iff_ne, unexpected, ne_comm]

theorem tryChoices_stops (choices : List TaskId) (ended : unexpected expectFailure s.err) :
    tryChoices driver expectFailure explore choices s = .ok s := by
  cases choices with
  | nil => rfl
  | cons task choices =>
      rw [tryChoices, if_neg]
      unfold unexpected at ended
      cases expectFailure <;> simp_all

theorem schedule_forced (recorded : Recorded driver root path t p) (task other : TaskId) :
    cliTraceScheduleTask driver.blank other (forced driver.blank (path.length + 1) task :: t) =
      .ok (forced driver.blank (path.length + 1) other :: t) := by
  have drops : dropScheduled (path.length + 1)
      (forced driver.blank (path.length + 1) task :: t) = t := by
    rw [dropScheduled, if_pos ⟨rfl, by simp only [forced]; decide⟩]
    exact drop_recorded recorded (Nat.lt_succ_self _)
  rw [cliTraceScheduleTask]
  simp only [forced] at drops ⊢
  rw [drops]

theorem schedule_choice {task : TaskId} {force : Trace P} {r : Record P}
    (recorded : Recorded driver root path t p) (forces : Forces (path.length + 1) task force)
    (scheduled : Scheduled (path.length + 1) task r) (input : s.input = r :: (force ++ t))
    (other : TaskId) : cliTraceScheduleTask driver.blank other s.input =
      .ok (forced driver.blank (path.length + 1) other :: t) := by
  obtain ⟨kind, now, _⟩ := scheduled
  have drops : dropScheduled (path.length + 1) (force ++ t) = t := by
    rcases forces with rfl | ⟨f, rfl, kind, now, _⟩
    · exact drop_recorded recorded (Nat.lt_succ_self _)
    · rw [List.singleton_append, dropScheduled, if_pos ⟨now, by rw [kind]; decide⟩]
      exact drop_recorded recorded (Nat.lt_succ_self _)
  rw [input, cliTraceScheduleTask, now, dropScheduled, if_pos ⟨now, by rw [kind]; decide⟩, drops]

theorem tryChoices_spec (follows : Follows driver root)
    (recorded : Recorded driver root path t (.choose tasks ready next))
    (answers : Answers driver root expectFailure (path.length + 2) explore)
    (choices : List TaskId) (known : ∀ task ∈ choices, task ∈ tasks)
    (schedules : ∀ task, cliTraceScheduleTask driver.blank task s.input =
      .ok (forced driver.blank (path.length + 1) task :: t))
    (flag : s.isError = (s.err != 0)) (calm : ¬ unexpected expectFailure s.err) :
    ∃ s', tryChoices driver expectFailure explore choices s = .ok s' ∧ s'.isError = (s'.err != 0) ∧
      (unexpected expectFailure s'.err ↔
        ∃ task ∈ choices, Hits (unexpected expectFailure) (next task)) ∧
      (choices ≠ [] → s'.input.tail = t) := by
  induction choices generalizing s with
  | nil => exact ⟨s, rfl, flag, by simp [calm], fun some => absurd rfl some⟩
  | cons task choices ih =>
      have member := known task List.mem_cons_self
      obtain ⟨more, code, output, ran, ⟨trace, run, kept⟩, notInterrupted⟩ :=
        follows s.round path t tasks ready next task recorded member
      have split : path ++ task :: more = (path ++ [task]) ++ more := by simp
      have leads := leads_snoc (recorded_leads recorded) member
      have ends : Leads (next task) more (.exit code) := by
        obtain ⟨m, first, second⟩ := leads_append.mp (split ▸ recorded_leads run)
        rwa [leads_unique leads first]
      have hits : Hits (unexpected expectFailure) (next task) ↔ unexpected expectFailure code ∨
          Found (unexpected expectFailure) root (path ++ task :: more) (path.length + 2) := by
        have searched := hits_iff (unexpected expectFailure) leads ends
        rwa [← split, List.length_append] at searched
      rw [tryChoices, if_pos (goes_on calm), schedules, ok_bind]
      simp only [ran]
      by_cases ended : unexpected expectFailure code
      · rw [if_pos ((breaks_iff notInterrupted).mpr ended)]
        refine ⟨_, rfl, rfl, ?_, fun _ => rfl⟩
        exact iff_of_true ended ⟨task, List.mem_cons_self, hits.mpr (Or.inl ended)⟩
      · have goes := mt (breaks_iff notInterrupted).mp ended
        obtain ⟨err, rounds, explored, found⟩ :=
          answers _ output _ (s.round + 1) ⟨trace, run, kept⟩
        rw [if_neg goes, explored, ok_bind]
        have here : Hits (unexpected expectFailure) (next task) ↔ unexpected expectFailure err := by
          rw [hits, found]
          exact or_iff_right ended
        by_cases late : unexpected expectFailure err
        · refine ⟨_, tryChoices_stops choices late, rfl, ?_, fun _ => rfl⟩
          exact iff_of_true late ⟨task, List.mem_cons_self, here.mpr late⟩
        · obtain ⟨s', rest, flag, found, shorter⟩ := ih (s := ⟨err, err != 0, _, rounds⟩)
            (fun task member => known task (List.mem_cons_of_mem _ member))
            (schedule_forced recorded task) rfl late
          refine ⟨s', rest, flag, ?_, ?_⟩
          · simp only [found, List.mem_cons, exists_eq_or_imp, here]
            exact (or_iff_right late).symm
          · intro _
            by_cases last : choices = []
            · subst last
              cases rest
              rfl
            · exact shorter last

theorem exploreLoop_stops {explore : Nat → Trace P → Nat → Except Fault (Int × Nat)}
    (flag : s.isError = (s.err != 0)) (ended : unexpected expectFailure s.err) :
    exploreLoop driver expectFailure explore least most (fuel + 1) s = .ok s := by
  rw [exploreLoop]
  split
  · rfl
  · rw [if_neg]
    rintro ⟨same, _⟩
    rw [flag] at same
    exact ended (beq_iff_eq.mp same).symm

theorem single_iff (tasks : Tidset) (task : TaskId) :
    tasks.size ≤ (tasks.has task).toNat ↔ ∀ other ∈ tasks, other = task := by
  obtain ⟨list, nodup⟩ := tasks
  match list, nodup with
  | [], _ => simp [Tidset.size, Tidset.mem_def]
  | [a], _ =>
      by_cases here : a = task
      · simp [Tidset.size, Tidset.has, Tidset.mem_def, here]
      · simp [Tidset.size, Tidset.has, Tidset.mem_def, here, Ne.symm here]
  | a :: b :: rest, nodup =>
      refine iff_of_false ?_ ?_
      · have few := Bool.toNat_le (Tidset.has ⟨a :: b :: rest, nodup⟩ task)
        simp only [Tidset.size, List.length_cons]
        omega
      · intro same
        have first := same a List.mem_cons_self
        have second := same b (List.mem_cons_of_mem _ List.mem_cons_self)
        exact (List.nodup_cons.mp nodup).1 (first.trans second.symm ▸ List.mem_cons_self)

theorem exploreLoop_spec {explore : Nat → Trace P → Nat → Except Fault (Int × Nat)}
    (follows : Follows driver root) (fits : root.height < most) (wide : most < UInt64.size)
    (answers : ∀ clk, least ≤ clk → clk ≤ root.height →
      Answers driver root expectFailure (clk + 1) (explore (clk + 1)))
    (recorded : Recorded driver root path t p)
    (enough : (getLastRecordSmallerOrEqualThanClock most t).length < fuel)
    (input : s.input = getLastRecordSmallerOrEqualThanClock most t)
    (flag : s.isError = (s.err != 0)) (calm : ¬ unexpected expectFailure s.err) :
    ∃ s', exploreLoop driver expectFailure explore least most fuel s = .ok s' ∧
      (unexpected expectFailure s'.err ↔ Found (unexpected expectFailure) root path least) := by
  induction recorded generalizing s fuel with
  | start =>
      obtain ⟨fuel, rfl⟩ := Nat.exists_eq_add_of_lt enough
      refine ⟨s, ?_, iff_of_false calm not_found_nil⟩
      rw [exploreLoop, input]
      rfl
  | mark before mark ih =>
      rw [getLastRecordSmallerOrEqualThanClock, if_pos (skips_kind (mark_kind mark).1)] at input enough
      exact ih enough input flag calm
  | @choice path tasks t force ready next task r before member forces scheduled typed available ih =>
      have leads := recorded_leads before
      have deep := leads_length (leads_snoc leads member)
      rw [List.length_append, List.length_singleton] at deep
      have now : r.clk = path.length + 1 := scheduled.2.1
      have kept := skips_choice most scheduled typed (by omega)
      rw [getLastRecordSmallerOrEqualThanClock, if_neg (by simp [kept])] at input enough
      have others := found_snoc (unexpected expectFailure) least task leads
      cases fuel with
      | zero => exact absurd enough (Nat.not_lt_zero _)
      | succ fuel =>
          have enough : (getLastRecordSmallerOrEqualThanClock most t).length < fuel := by
            have shorter := last_length most t
            simp only [List.length_cons, List.length_append] at enough
            omega
          rw [exploreLoop, input]
          by_cases late : least ≤ path.length + 1
          · have goes : expectFailure == s.isError ∧ least ≤ most ∧ least ≤ r.clk := by
              refine ⟨?_, by omega, by omega⟩
              rw [flag, beq_iff_eq]
              exact (not_not.mp calm).symm
            simp only [if_pos goes]
            by_cases single : (driver.available r.data).size ≤ ((driver.available r.data).has r.id).toNat
            · -- The task of the record is the only one.
              rw [if_pos single, ok_bind, input, List.tail_cons, last_append (forces_skips forces)]
              obtain ⟨s', rest, found⟩ := ih (s := { s with
                input := getLastRecordSmallerOrEqualThanClock most t }) enough rfl flag calm
              refine ⟨s', rest, found.trans ?_⟩
              rw [others, or_iff_right]
              rintro ⟨_, other, among, differs, _⟩
              apply differs
              rw [← scheduled.2.2]
              exact (single_iff _ r.id).mp single other ((available other).mpr among)
            · have choices : ∀ other, other ∈ ((driver.available r.data).remove r.id).tasks ↔
                  other ≠ task ∧ other ∈ tasks := by
                intro other
                rw [← Tidset.mem_def, Tidset.mem_remove, available, scheduled.2.2]
              have some : ((driver.available r.data).remove r.id).tasks ≠ [] := by
                intro none
                apply single
                apply (single_iff _ r.id).mpr
                intro other among
                by_contra differs
                have remains := Tidset.mem_def.mp (Tidset.mem_remove.mpr ⟨differs, among⟩)
                rw [none] at remains
                exact List.not_mem_nil remains
              rw [if_neg single, now, Nat.mod_eq_of_lt (by omega)]
              obtain ⟨s', tried, flag', hits, shorter⟩ := tryChoices_spec (s := s) follows before
                (answers (path.length + 1) late (by omega))
                ((driver.available r.data).remove r.id).tasks
                (fun other among => ((choices other).mp among).2)
                (schedule_choice before forces scheduled input) flag calm
              rw [tried, ok_bind, shorter some]
              have alternatives : unexpected expectFailure s'.err ↔
                  ∃ other ∈ tasks, other ≠ task ∧ Hits (unexpected expectFailure) (next other) := by
                rw [hits]
                simp only [choices, and_assoc, and_left_comm]
              by_cases ended : unexpected expectFailure s'.err
              · cases fuel with
                | zero => exact absurd enough (Nat.not_lt_zero _)
                | succ fuel =>
                    refine ⟨_, exploreLoop_stops flag' ended, ?_⟩
                    exact iff_of_true ended (others.mpr (Or.inl ⟨late, alternatives.mp ended⟩))
              · obtain ⟨s'', rest, found⟩ := ih (s := { s' with
                  input := getLastRecordSmallerOrEqualThanClock most t }) enough rfl flag' ended
                refine ⟨s'', rest, found.trans ?_⟩
                rw [others, or_iff_right]
                exact fun ⟨_, alternative⟩ => ended (alternatives.mpr alternative)
          · refine ⟨s, ?_, iff_of_false calm ?_⟩
            · simp only [now, late, and_false, if_false]
            · intro found
              have early := found_late found
              rw [List.length_append, List.length_singleton] at early
              exact late early
  | @only path tasks t force rs ready next task before member alone forces scheduled ih =>
      have leads := recorded_leads before
      have others := found_snoc (unexpected expectFailure) least task leads
      have skipped : ∀ r ∈ rs, skips most r = true := by
        rcases scheduled with rfl | ⟨r, rfl, _, untyped⟩
        · exact fun r among => absurd among List.not_mem_nil
        · intro r' among
          obtain rfl := List.mem_singleton.mp among
          exact skips_untyped untyped
      rw [last_append skipped, last_append (forces_skips forces)] at input enough
      obtain ⟨s', rest, found⟩ := ih enough input flag calm
      refine ⟨s', rest, found.trans ?_⟩
      rw [others, or_iff_right]
      rintro ⟨_, other, among, differs, _⟩
      exact differs (alone other among)

end Loops

section Fuel

variable {driver : Driver P} {expectFailure : Bool} {least most fuel : Nat}

theorem tryChoices_mono {explore explore' : Trace P → Nat → Except Fault (Int × Nat)}
    (same : ∀ t round answer, explore t round = .ok answer → explore' t round = .ok answer)
    {choices : List TaskId} {s s' : Search P}
    (ran : tryChoices driver expectFailure explore choices s = .ok s') :
    tryChoices driver expectFailure explore' choices s = .ok s' := by
  induction choices generalizing s with
  | nil => exact ran
  | cons task choices ih =>
      rw [tryChoices] at ran ⊢
      split
      · rename_i goes
        rw [if_pos goes] at ran
        obtain ⟨input, scheduled, rest⟩ := bind_eq_ok.mp ran
        refine bind_eq_ok.mpr ⟨input, scheduled, ?_⟩
        simp only at rest ⊢
        split
        · rename_i stops
          rwa [if_pos stops] at rest
        · rename_i stays
          rw [if_neg stays] at rest
          obtain ⟨answer, explored, rest⟩ := bind_eq_ok.mp rest
          exact bind_eq_ok.mpr ⟨answer, same _ _ _ explored, ih rest⟩
      · rename_i ended
        rwa [if_neg ended] at ran

theorem exploreLoop_mono {explore explore' : Nat → Trace P → Nat → Except Fault (Int × Nat)}
    (same : ∀ least t round answer, explore least t round = .ok answer →
      explore' least t round = .ok answer) {s s' : Search P}
    (ran : exploreLoop driver expectFailure explore least most fuel s = .ok s') :
    exploreLoop driver expectFailure explore' least most fuel s = .ok s' := by
  induction fuel generalizing s with
  | zero => cases ran
  | succ fuel ih =>
      rw [exploreLoop] at ran ⊢
      split at ran
      · exact ran
      · rename_i current rest input
        simp only at ran ⊢
        split
        · rename_i goes
          rw [if_pos goes] at ran
          split
          · rename_i single
            rw [if_pos single] at ran
            exact ih ran
          · rename_i several
            rw [if_neg several] at ran
            obtain ⟨s₁, tried, rest⟩ := bind_eq_ok.mp ran
            exact bind_eq_ok.mpr ⟨s₁, tryChoices_mono (same _) tried, ih rest⟩
        · rename_i ended
          rwa [if_neg ended] at ran

end Fuel

section Depth

variable {driver : Driver P} {root : Program} {expectFailure : Bool} {least most depth : Nat}

theorem calm_start (expectFailure : Bool) : ¬ unexpected expectFailure expectFailure.toNat := by
  cases expectFailure <;> simp [unexpected]

theorem interval_answers (follows : Follows driver root) (fits : root.height < most)
    (wide : most < UInt64.size)
    (answers : ∀ clk, least ≤ clk → clk ≤ root.height → Answers driver root expectFailure (clk + 1)
      (exploreInterval driver most expectFailure depth (clk + 1))) :
    Answers driver root expectFailure least
      (exploreInterval driver most expectFailure (depth + 1) least) := by
  rintro path trace p round ⟨t, recorded, whole⟩
  have input : getLastRecordSmallerOrEqualThanClock most trace =
      getLastRecordSmallerOrEqualThanClock most t := by
    rcases whole with rfl | ⟨r, kind, rfl⟩
    · rfl
    · rw [getLastRecordSmallerOrEqualThanClock, if_pos (skips_kind (by simp [kind]))]
  have flag (expectFailure : Bool) : expectFailure = ((expectFailure.toNat : Int) != 0) := by
    cases expectFailure <;> rfl
  obtain ⟨s, ran, found⟩ := exploreLoop_spec (s := ⟨expectFailure.toNat,
    expectFailure, getLastRecordSmallerOrEqualThanClock most t, round⟩) follows fits wide answers
    recorded (Nat.lt_succ_self _) rfl (flag expectFailure) (calm_start expectFailure)
  refine ⟨s.err, s.round, ?_, found⟩
  rw [exploreInterval, input]
  exact bind_eq_ok.mpr ⟨s, ran, rfl⟩

theorem exploreInterval_answers (depth : Nat) (follows : Follows driver root) (fits : root.height < most)
    (wide : most < UInt64.size) (deep : root.height < least + depth) :
    Answers driver root expectFailure least
      (exploreInterval driver most expectFailure (depth + 1) least) := by
  induction depth generalizing least with
  | zero =>
      refine interval_answers follows fits wide ?_
      intro clk late early
      omega
  | succ depth ih =>
      refine interval_answers follows fits wide ?_
      intro clk late _
      apply ih
      omega

theorem exploreInterval_mono {input : Trace P} {round : Nat} {answer : Int × Nat}
    (returned : exploreInterval driver most expectFailure depth least input round = .ok answer) :
    exploreInterval driver most expectFailure (depth + 1) least input round = .ok answer := by
  induction depth generalizing least input round answer with
  | zero => cases returned
  | succ depth ih =>
      rw [exploreInterval] at returned ⊢
      obtain ⟨s, ran, rest⟩ := bind_eq_ok.mp returned
      exact bind_eq_ok.mpr ⟨s, exploreLoop_mono (fun _ _ _ _ answered => ih answered) ran, rest⟩

end Depth

section Replayer

variable {root p : Program} {path tasks : List TaskId} {t input late : Trace Tidset}
  {ready : tasks ≠ []} {next : TaskId → Program} {task : TaskId} {clk : Nat}

def decides (clk : Nat) (r : Record P) : Bool :=
  r.clk == clk && (r.kind == .recordSched || r.kind == .recordForce)

def pick (input : Trace P) (clk : Nat) (tasks : List TaskId) (ready : tasks ≠ []) : TaskId :=
  match input.find? (decides clk) with
  | some r => if r.id ∈ tasks then r.id else tasks.head ready
  | none => tasks.head ready

def chosen (clk : Nat) (task : TaskId) (tasks : List TaskId) : Record Tidset :=
  { id := task, clk, chainId := 0, typeId := eventTaskInit, reason := .unknown, kind := .recordSched
    pc := 0, data := ⟨tasks.dedup, tasks.nodup_dedup⟩ }

def replayRun (input : Trace Tidset) : Program → Nat → Trace Tidset → Int × Trace Tidset
  | .exit code, _, t => (code, t)
  | .choose tasks ready next, clk, t =>
      let task := pick input clk tasks ready
      replayRun input (next task) (clk + 1) (chosen clk task tasks :: t)

def replayer (root : Program) : Driver Tidset where
  available tasks := tasks
  blank := .empty
  execute _ input := replayRun input root 1 []

theorem pick_mem (ready : tasks ≠ []) (input : Trace P) (clk : Nat) : pick input clk tasks ready ∈ tasks := by
  unfold pick
  split
  · split
    · assumption
    · exact List.head_mem ready
  · exact List.head_mem ready

theorem pick_decided {early : Trace P} (late : Trace P) {r : Record P}
    (others : ∀ r ∈ late, decides clk r = false) (decided : decides clk r = true)
    (member : r.id ∈ tasks) : pick (late ++ r :: early) clk tasks ready = r.id := by
  have found : (late ++ r :: early).find? (decides clk) = some r := by
    rw [List.find?_append, List.find?_eq_none.mpr (by simpa using others), Option.none_or,
      List.find?_cons_of_pos decided]
  rw [pick, found]
  exact if_pos member

theorem chosen_recorded (recorded : Recorded (replayer root) root path t (.choose tasks ready next))
    (member : task ∈ tasks) :
    Recorded (replayer root) root (path ++ [task]) (chosen (path.length + 1) task tasks :: t)
      (next task) := by
  have forces : Forces (path.length + 1) task ([] : Trace Tidset) := Or.inl rfl
  refine Recorded.choice recorded member forces ⟨rfl, rfl, rfl⟩ ?_ ?_
  · exact ⟨show eventTaskInit ≠ 0 by decide, show eventTaskInit ≠ eventTaskCreate by decide⟩
  · intro id
    exact List.mem_dedup

theorem replay_step (clk : Nat) (picked : pick input clk tasks ready = task) (t : Trace Tidset) :
    replayRun input (.choose tasks ready next) clk t =
      replayRun input (next task) (clk + 1) (chosen clk task tasks :: t) := by
  rw [replayRun, picked]

theorem decides_later {r : Record P} (later : clk < r.clk) : decides clk r = false := by
  have apart : (r.clk == clk) = false := beq_eq_false_iff_ne.mpr (Nat.ne_of_gt later)
  rw [decides, apart, Bool.false_and]

theorem forces_later {force : Trace P} (forces : Forces clk task force) :
    ∀ r ∈ force, r.clk = clk := by
  rcases forces with rfl | ⟨f, rfl, _, now, _⟩
  · exact fun r member => absurd member List.not_mem_nil
  · intro r member
    obtain rfl := List.mem_singleton.mp member
    exact now

theorem undecided {before entry : Trace P} {n : Nat}
    (others : ∀ r ∈ before, ∀ clk, clk ≤ n + 1 → decides clk r = false)
    (now : ∀ r ∈ entry, r.clk = n + 1) :
    ∀ r ∈ before ++ entry, ∀ clk, clk ≤ n → decides clk r = false := by
  intro r member clk early
  rcases List.mem_append.mp member with member | member
  · exact others r member clk (Nat.le_succ_of_le early)
  · apply decides_later
    rw [now r member]
    exact Nat.lt_succ_of_le early

theorem replay_arrives (recorded : Recorded (replayer root) root path t p)
    (others : ∀ r ∈ late, ∀ clk, clk ≤ path.length → decides clk r = false) :
    ∃ output, Recorded (replayer root) root path output p ∧
      replayRun (late ++ t) root 1 [] = replayRun (late ++ t) p (path.length + 1) output := by
  induction recorded generalizing late with
  | start => exact ⟨[], .start, rfl⟩
  | @mark path t p r before mark ih =>
      rw [List.append_cons]
      apply ih
      intro r' member clk early
      rcases List.mem_append.mp member with member | member
      · exact others r' member clk early
      · obtain rfl := List.mem_singleton.mp member
        obtain ⟨sched, force⟩ := mark_kind mark
        simp [decides, sched, force]
  | @choice path tasks t force ready next task r before member forces scheduled _ _ ih =>
      rw [List.length_append, List.length_singleton] at others ⊢
      have entry : ∀ r' ∈ r :: force, r'.clk = path.length + 1 := by
        intro r' member
        rcases List.mem_cons.mp member with rfl | member
        · exact scheduled.2.1
        · exact forces_later forces r' member
      obtain ⟨output, run, ran⟩ := ih (undecided others entry)
      have same : late ++ r :: (force ++ t) = late ++ r :: force ++ t := by simp
      have picked : pick (late ++ r :: (force ++ t)) (path.length + 1) tasks ready = task := by
        rw [pick_decided late (fun r' among => others r' among _ (Nat.le_refl _)) _ _, scheduled.2.2]
        · simp [decides, scheduled.1, scheduled.2.1]
        · rwa [scheduled.2.2]
      refine ⟨_, chosen_recorded run member, ?_⟩
      rw [same, ran, ← same, replay_step _ picked]
  | @only path tasks t force rs ready next task before member alone forces scheduled ih =>
      rw [List.length_append, List.length_singleton] at others ⊢
      have entry : ∀ r ∈ rs ++ force, r.clk = path.length + 1 := by
        intro r among
        rcases List.mem_append.mp among with among | among
        · rcases scheduled with rfl | ⟨r', rfl, scheduled, _⟩
          · exact absurd among List.not_mem_nil
          · obtain rfl := List.mem_singleton.mp among
            exact scheduled.2.1
        · exact forces_later forces r among
      obtain ⟨output, run, ran⟩ := ih (undecided others entry)
      have same : late ++ (rs ++ (force ++ t)) = late ++ (rs ++ force) ++ t := by simp
      refine ⟨_, chosen_recorded run member, ?_⟩
      rw [same, ran, replay_step _ (alone _ (pick_mem _ _ _))]

theorem replay_ends (input : Trace Tidset) (recorded : Recorded (replayer root) root path t p) :
    ∃ more code output, replayRun input p (path.length + 1) t = (code, output) ∧
      Recorded (replayer root) root (path ++ more) output (.exit code) := by
  induction p generalizing path t with
  | exit code => exact ⟨[], code, t, rfl, by simpa using recorded⟩
  | choose tasks ready next ih =>
      have member := pick_mem ready input (path.length + 1)
      obtain ⟨more, code, output, ran, ends⟩ := ih _ (chosen_recorded recorded member)
      refine ⟨_ :: more, code, output, ?_, by simpa using ends⟩
      rw [replay_step _ rfl]
      simpa using ran

theorem replayer_follows (codes : ∀ schedule code, Leads root schedule (.exit code) → code ≠ 130) :
    Follows (replayer root) root := by
  intro round path t tasks ready next task recorded member
  have later : ∀ r ∈ [forced (replayer root).blank (path.length + 1) task], ∀ clk,
      clk ≤ path.length → decides clk r = false := by
    intro r among clk early
    obtain rfl := List.mem_singleton.mp among
    exact decides_later (Nat.lt_succ_of_le early)
  obtain ⟨output, run, ran⟩ := replay_arrives recorded later
  have picked : pick (forced (replayer root).blank (path.length + 1) task :: t) (path.length + 1)
      tasks ready = task := by
    refine pick_decided [] (fun r among => absurd among List.not_mem_nil) ?_ member
    simp [decides, forced]
  obtain ⟨more, code, output, rest, ends⟩ := replay_ends
    (forced (replayer root).blank (path.length + 1) task :: t) (chosen_recorded run member)
  have split : path ++ task :: more = (path ++ [task]) ++ more := by simp
  refine ⟨more, code, output, ?_, ⟨output, split ▸ ends, Or.inl rfl⟩,
    codes _ code (recorded_leads ends)⟩
  rw [List.length_append, List.length_singleton] at rest
  rw [← rest, ← replay_step _ picked]
  exact ran

end Replayer

/-- `_explore_interval` is exhaustive: it returns, and its result says whether some schedule that
first deviates from its input at the clock `least` or later fails, or passes where failures are
expected. -/
theorem explore_exhaustive (driver : Driver P) (root : Program) (follows : Follows driver root)
    (fits : root.height < uint64Max) (path : List TaskId) (input : Trace P) (p : Program)
    (traced : Traced driver root path input p) (least round : Nat) :
    (∃ depth err rounds, (∀ fuel, depth ≤ fuel →
        exploreInterval driver uint64Max false fuel least input round = .ok (err, rounds)) ∧
      (err ≠ 0 ↔ ∃ schedule code clk, Leads root schedule (.exit code) ∧
        Deviates path schedule clk ∧ least ≤ clk ∧ code ≠ 0)) ∧
    (∃ depth err rounds, (∀ fuel, depth ≤ fuel →
        exploreInterval driver uint64Max true fuel least input round = .ok (err, rounds)) ∧
      (err = 0 ↔ ∃ schedule code clk, Leads root schedule (.exit code) ∧
        Deviates path schedule clk ∧ least ≤ clk ∧ code = 0)) := by
  have answers (expectFailure : Bool) : ∃ depth err rounds, (∀ fuel, depth ≤ fuel →
        exploreInterval driver uint64Max expectFailure fuel least input round = .ok (err, rounds)) ∧
      (unexpected expectFailure err ↔ Found (unexpected expectFailure) root path least) := by
    obtain ⟨err, rounds, returned, found⟩ := exploreInterval_answers (root.height + 1)
      follows fits (by decide) (by omega) path input p round traced
    refine ⟨root.height + 1 + 1, err, rounds, ?_, found⟩
    intro fuel enough
    induction enough with
    | refl => exact returned
    | step _ ih => exact exploreInterval_mono ih
  refine ⟨?_, ?_⟩
  · simpa [unexpected, Found] using answers false
  · simpa [unexpected, Found] using answers true

def twoTasks : Program := .choose [1, 2] (by simp) fun task => .exit (if task = 1 then 0 else 1)

theorem explore_exhaustive_fails : ∃ depth err rounds,
    exploreInterval (replayer twoTasks) uint64Max false depth 1 [chosen 1 1 [1, 2]] 0 =
      .ok (err, rounds) ∧ err ≠ 0 := by
  have codes : ∀ schedule code, Leads twoTasks schedule (.exit code) → code ≠ 130 := by
    intro schedule code leads
    cases leads with
    | choose _ rest =>
        cases rest with
        | here => split <;> decide
  have traced : Traced (replayer twoTasks) twoTasks [1] [chosen 1 1 [1, 2]] (.exit 0) :=
    ⟨_, chosen_recorded .start (List.mem_cons_self), Or.inl rfl⟩
  obtain ⟨⟨depth, err, rounds, returned, found⟩, _⟩ := explore_exhaustive (replayer twoTasks) twoTasks
    (replayer_follows codes) (by decide) [1] _ _ traced 1 0
  refine ⟨depth, err, rounds, returned depth (Nat.le_refl _),
    found.mpr ⟨[2], 1, 1, ?_, ?_, Nat.le_refl _, by decide⟩⟩
  · exact .choose (by simp) (.here _)
  · exact deviates_cons (by decide)

end Lotto.Explore
