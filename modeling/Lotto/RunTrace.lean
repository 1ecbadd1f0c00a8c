import Lotto.EngineRun

namespace Lotto.RunTrace

open Library.FaultRun
open RecorderReplay SequencerReturns SequencerRun HandlerSpecs EngineRun

variable {N P : Type} {mods : Modules N P} {rules : Rules N P}
  {t rest out : List (Record (Tidset × P))} {w : World N P}

/-- FORCE records are put into a trace by hand, no run writes one by itself. -/
def NoForce (t : List (Record P)) : Prop := ∀ r ∈ t, r.kind ≠ .recordForce

structure SamePoint (cp cp' : CapturePoint) : Prop where
  id : cp.id = cp'.id
  typeId : cp.typeId = cp'.typeId
  blocking : cp.blocking = cp'.blocking

/-- The output trace of a run: SCHED records of its clocks and clones of START and CONFIG
records. -/
structure Trace (w : World N P) (out : List (Record (Tidset × P))) : Prop where
  output : w.engine.recorder.output = some out
  order : out.Pairwise Follows
  written : ∀ r ∈ out, Written r
  kinds : ∀ r ∈ out, r.kind ≠ .recordForce ∧ r.kind ≠ .recordExit
  bound : ∀ r ∈ out, r.clk ≤ w.log.length
  empty : w.clk = 0 → out = []
  sched : ∀ r ∈ out, r.kind = .recordSched →
    ∃ c, w.log[r.clk - 1]? = some c ∧ r.id = c.resumed.id ∧ r.data.1 = c.returned

theorem clone_kind (noForce : NoForce t) (inv : Inv t w rest) {r : Record (Tidset × P)}
    (member : r ∈ (loaded (w.clk + 1) rest).filter isCloned) :
    r ∈ t ∧ (r.kind = .recordStart ∨ r.kind = .recordConfig) ∧ r.clk = w.clk := by
  obtain ⟨inLoaded, cloned⟩ := List.mem_filter.mp member
  have inRest : r ∈ rest := (List.takeWhile_sublist _).subset inLoaded
  have inTrace : r ∈ t := by
    rw [← inv.cursor.split]
    exact List.mem_append_right _ inRest
  have after : r.kind.isAfterKind = true := by
    simpa [isCloned, noForce r inTrace] using cloned
  have due : notYet (w.clk + 1) r = false := by
    simpa using List.mem_takeWhile_imp inLoaded
  obtain ⟨upper, apart⟩ := notYet_eq_false due
  have lower := (inv.cursor.ready r inRest).1
  have kind : r.kind = .recordStart ∨ r.kind = .recordConfig := by
    simpa [Kind.isAfterKind_eq] using after
  have away := apart after
  exact ⟨inTrace, kind, by omega⟩

theorem Trace.extend {w' : World N P} (trace : Trace w out) (new : List (Record (Tidset × P)))
    (output : w'.engine.recorder.output = some (out ++ new)) (order : new.Pairwise Follows)
    (follows : ∀ a ∈ out, ∀ b ∈ new, Follows a b) (written : ∀ r ∈ new, Written r)
    (kinds : ∀ r ∈ new, r.kind ≠ .recordForce ∧ r.kind ≠ .recordExit)
    (longer : w.log <+: w'.log) (bound : ∀ r ∈ new, r.clk ≤ w'.log.length) (positive : w'.clk ≠ 0)
    (sched : ∀ r ∈ new, r.kind = .recordSched →
      ∃ c, w'.log[r.clk - 1]? = some c ∧ r.id = c.resumed.id ∧ r.data.1 = c.returned) :
    Trace w' (out ++ new) where
  output := output
  order := List.pairwise_append.mpr ⟨trace.order, order, follows⟩
  written := by
    intro r member
    rcases List.mem_append.mp member with old | inNew
    · exact trace.written r old
    · exact written r inNew
  kinds := by
    intro r member
    rcases List.mem_append.mp member with old | inNew
    · exact trace.kinds r old
    · exact kinds r inNew
  bound := by
    intro r member
    rcases List.mem_append.mp member with old | inNew
    · exact Nat.le_trans (trace.bound r old) longer.length_le
    · exact bound r inNew
  empty := fun zero => absurd zero positive
  sched := by
    intro r member kind
    rcases List.mem_append.mp member with old | inNew
    · obtain ⟨c, found, facts⟩ := trace.sched r old kind
      have inside := (List.getElem?_eq_some_iff.mp found).1
      obtain ⟨more, whole⟩ := longer
      refine ⟨c, ?_, facts⟩
      rw [← whole, List.getElem?_append_left inside]
      exact found
    · exact sched r inNew kind

theorem trace_move (wf : WellFormed t) (noForce : NoForce t) {w' : World N P}
    (inv : Inv t w rest) (move : Move mods rules t rest w w')
    (trace : Trace w out) : ∃ out', Trace w' out' := by
  cases move with
  | quiet modules recorder running log =>
      refine ⟨out, ⟨by rw [recorder]; exact trace.output, trace.order, trace.written, trace.kinds,
        ?_, ?_, ?_⟩⟩
      · rw [log]
        exact trace.bound
      · simp only [World.clk, log, running]
        exact trace.empty
      · rw [log]
        exact trace.sched
  | capture idle valid admitted decided first opened unmarshalled second finished
      running log =>
      have clk : w.clk = w.log.length := by simp [World.clk, idle]
      have clones := fun r => clone_kind (r := r) noForce inv
      have suffix : ((loaded (w.clk + 1) rest).filter isCloned).Sublist t := by
        rw [← inv.cursor.split]
        exact (List.filter_sublist.trans (List.takeWhile_sublist _)).trans
          (List.sublist_append_right _ _)
      refine ⟨_, trace.extend ((loaded (w.clk + 1) rest).filter isCloned) ?_ ?_ ?_ ?_ ?_ ?_ ?_ ?_
        ?_⟩
      · rw [finished.recorder, opened.output, trace.output]
        rfl
      · exact wf.order.sublist suffix
      · intro a old b new
        obtain ⟨_, kind, now⟩ := clones b new
        have before := trace.bound a old
        have config : b.kind = .recordConfig := by
          rcases kind with start | config
          · -- START is of clock 0, where nothing was written before
            have zero : w.clk = 0 := by
              rw [← now]
              exact (wf.written b (suffix.subset new)).start start
            simp [trace.empty zero] at old
          · exact config
        refine ⟨(trace.kinds a old).2, by simp [config], ?_⟩
        rcases Nat.lt_or_eq_of_le before with less | same
        · left
          omega
        · exact Or.inr ⟨by omega, Or.inl config⟩
      · intro r member
        exact wf.written r (suffix.subset member)
      · intro r member
        rcases (clones r member).2.1 with kind | kind <;> simp [kind]
      · simp [log]
      · intro r member
        rw [log, ← clk]
        exact Nat.le_of_eq (clones r member).2.2
      · simp [World.clk, running]
      · intro r member kind
        rcases (clones r member).2.1 with other | other <;> simp [other] at kind
  | @resume capture cp chain running task admitted published handled modules output stopped log =>
      have clk : w.clk = w.log.length + 1 := by simp [World.clk, running]
      have positive : w'.clk ≠ 0 := by simp [World.clk, log]
      have longer : w.log <+: w'.log := by
        rw [log]
        exact List.prefix_append _ _
      have length : w'.log.length = w.log.length + 1 := by simp [log]
      rw [trace.output] at output
      refine ⟨_, trace.extend _ output ?_ ?_ ?_ ?_ longer ?_ positive ?_⟩
      · split
        · exact List.pairwise_singleton _ _
        · exact List.Pairwise.nil
      · intro a old b new
        split at new
        · rw [List.mem_singleton] at new
          subst new
          have before := trace.bound a old
          refine ⟨(trace.kinds a old).2, by simp [schedRecord], Or.inl ?_⟩
          simp only [schedRecord]
          omega
        · simp at new
      · intro r member
        split at member
        · rw [List.mem_singleton] at member
          subst member
          constructor <;> simp [schedRecord, clk]
        · simp at member
      · intro r member
        split at member
        · rw [List.mem_singleton] at member
          simp [member, schedRecord]
        · simp at member
      · intro r member
        split at member
        · rw [List.mem_singleton] at member
          simp [member, schedRecord, clk, length]
        · simp at member
      · intro r member _
        split at member
        · rw [List.mem_singleton] at member
          subst member
          refine ⟨{ capture with resumed := cp }, ?_, rfl, ?_⟩
          · simp [schedRecord, clk, log]
          · simp [schedRecord, withBlocking, modules.returned, inv.current capture running]
        · simp at member

/-- The trace that a run leaves behind: its output as it is when the run is cut off, or the
output closed by `sequencer_fini`. -/
inductive Output (mods : Modules N P) (w : World N P) : List (Record (Tidset × P)) → Prop
  | cut {out : List (Record (Tidset × P))} (output : w.engine.recorder.output = some out) :
      Output mods w out
  | exit {out : List (Record (Tidset × P))} {cp : CapturePoint} {reason : Reason}
      {engine : Engine (ModuleState N) (Tidset × P)}
      (fini : sequencerFini (withBlocking mods) cp reason w.engine = .ok engine)
      (output : engine.recorder.output = some out) : Output mods w out

structure TraceOf (log : List Clock) (t : List (Record (Tidset × P))) : Prop where
  wf : WellFormed t
  noForce : NoForce t
  sched : ∀ r ∈ t, r.kind = .recordSched →
    ∃ c, log[r.clk - 1]? = some c ∧ r.id = c.resumed.id ∧ r.data.1 = c.returned
  bound : ∀ r ∈ t, r.clk ≤ log.length + 1 ∧ (r.kind ≠ .recordExit → r.clk ≤ log.length)

theorem Trace.traceOf (trace : Trace w out) : TraceOf w.log out where
  wf := ⟨trace.order, trace.written⟩
  noForce := fun r member => (trace.kinds r member).1
  sched := trace.sched
  bound := fun r member =>
    ⟨Nat.le_succ_of_le (trace.bound r member), fun _ => trace.bound r member⟩

theorem Trace.output_traceOf (inv : Inv t w rest) (trace : Trace w out)
    {left : List (Record (Tidset × P))} (leaves : Output mods w left) :
    TraceOf w.log left ∧ ∀ r ∈ out, r ∈ left := by
  cases leaves with
  | cut output =>
      rw [trace.output] at output
      cases output
      exact ⟨trace.traceOf, fun r member => member⟩
  | @exit cp reason engine fini output =>
      obtain ⟨rc, closed, written, _⟩ := recorderFini_cursor (withBlocking mods) inv.cursor
        w.engine.modules cp.id reason
      simp only [sequencerFini, inv.now, closed, ok_bind] at fini
      cases fini
      rw [written, trace.output] at output
      cases output
      have bound : w.clk ≤ w.log.length + 1 := by
        simp only [World.clk]
        cases w.running <;> simp
      have least : w.log.length ≤ w.clk := by simp [World.clk]
      refine ⟨⟨⟨?_, ?_⟩, ?_, ?_, ?_⟩, fun r member => List.mem_append_left _ member⟩
      · refine List.pairwise_append.mpr ⟨trace.order, List.pairwise_singleton _ _, ?_⟩
        intro a old b new
        rw [List.mem_singleton] at new
        subst new
        have before := trace.bound a old
        refine ⟨(trace.kinds a old).2, by simp [exitRecord], ?_⟩
        rcases Nat.lt_or_eq_of_le (Nat.le_trans before least) with less | same
        · exact Or.inl less
        · exact Or.inr ⟨same, Or.inr rfl⟩
      · intro r member
        rcases List.mem_append.mp member with old | new
        · exact trace.written r old
        · rw [List.mem_singleton] at new
          subst new
          constructor <;> simp [exitRecord]
      · intro r member
        rcases List.mem_append.mp member with old | new
        · exact (trace.kinds r old).1
        · rw [List.mem_singleton] at new
          simp [new, exitRecord]
      · intro r member kind
        rcases List.mem_append.mp member with old | new
        · exact trace.sched r old kind
        · rw [List.mem_singleton] at new
          simp [new, exitRecord] at kind
      · intro r member
        rcases List.mem_append.mp member with old | new
        · exact trace.traceOf.bound r old
        · rw [List.mem_singleton] at new
          subst new
          exact ⟨bound, by simp [exitRecord]⟩

theorem start_inv (wf : WellFormed t) (noForce : NoForce t)
    {input : Option (List (Record (Tidset × P)))} (source : input = some t ∨ t = [] ∧ input = none)
    (recording : Bool) (others : N) :
    Inv t (World.start input (if recording then some [] else none) others) t :=
  inv_start wf (fun r member kind => absurd kind (noForce r member)) source recording others

theorem reaches_trace (wf : WellFormed t) (noForce : NoForce t)
    {input : Option (List (Record (Tidset × P)))} (source : input = some t ∨ t = [] ∧ input = none)
    {others : N} (reached : Reaches mods rules (World.start input (some []) others) w) :
    ∃ out, Trace w out := by
  apply reaches_rule wf (start_inv wf noForce source true others) _ _ reached
  · refine ⟨[], rfl, List.Pairwise.nil, ?_, ?_, ?_, fun _ => rfl, ?_⟩ <;> simp
  · rintro w w' rest rest' inv _ move ⟨out, trace⟩
    exact trace_move wf noForce inv move trace

end Lotto.RunTrace
