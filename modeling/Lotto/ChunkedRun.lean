import Lotto.ChunkedInvariant

namespace Lotto.ChunkedRun

open Library.FaultRun Library.Gather TraceFormat ChunkedSpecs ChunkedInvariant

inductive TraceOp
  | append (r : TraceRecord)
  | appendSafe (r : TraceRecord)
  | forget
  | last
  | next (filter : UInt32)
  | advance
  | save
  | reload
  deriving DecidableEq, Repr

structure FlatStore where
  t : FlatTrace
  written : List UInt8
  deriving DecidableEq, Repr

def flatDo : TraceOp → FlatStore → Except Fault (Option TraceRecord × FlatStore)
  | .append r, flat | .appendSafe r, flat => .ok (none, { flat with t := flatAppend flat.t r })
  | .forget, flat => .ok (none, { flat with t := flatForget flat.t })
  | .last, flat => .ok (flatLast flat.t, flat)
  | .next filter, flat =>
      .ok ((flatNext filter flat.t).1, { flat with t := (flatNext filter flat.t).2 })
  | .advance, flat => .ok (none, { flat with t := flatAdvance flat.t })
  | .save, flat => .ok (none, { flat with written := flat.written ++ flatSaveTo flat.t })
  | .reload, flat => do
      let t ← flatLoad flat.written
      .ok (none, { t, written := [] })

def chunkedDo : TraceOp → ChunkedTrace → Except Fault (Option TraceRecord × ChunkedTrace)
  | .append r, t | .appendSafe r, t => do
      let t ← chunkedAppend t r
      .ok (none, t)
  | .forget, t => do
      let t ← chunkedForget t
      .ok (none, t)
  | .last, t => chunkedLast t
  | .next filter, t => chunkedNext filter t
  | .advance, t => do
      let t ← chunkedAdvance t
      .ok (none, t)
  | .save, t => do
      let t ← chunkedSave t
      .ok (none, t)
  | .reload, t => do
      let t ← chunkedReload t
      .ok (none, t)

/-- Whether the trace was saved since it was created or loaded: `saved` right after that, `spent`
once something else was done with it. -/
inductive Phase
  | unsaved
  | saved
  | spent
  deriving DecidableEq, Repr

def Phase.after (phase : Phase) (t : ChunkedTrace) : TraceOp → Phase
  | .save => if t.mem.isEmpty then .unsaved else .saved
  | .reload => .unsaved
  | _ => if phase = .unsaved then .unsaved else .spent

def Keeps (t : ChunkedTrace) : TraceOp → Prop
  | .append _ | .appendSafe _ => t.nchunks ≤ t.currentChunk + 1
  | .forget => (t.currentChunk + 1 < t.nchunks → t.backed = true) ∧
      (t.nchunks ≤ t.currentChunk + 1 → t.currentChunk = t.startChunk →
        t.currentChunk = 0 ∨ 1 < t.mem.length)
  | .last => (t.currentChunk + 1 < t.nchunks → t.backed = true) ∧
      (t.nchunks ≤ t.currentChunk + 1 → t.mem = [] → t.currentChunk = 0)
  | .next _ => t.startChunk < t.currentChunk → Kept t
  | .advance => (t.startChunk < t.currentChunk → Kept t) ∧
      (t.currentChunk = t.startChunk → t.mem ≠ [] ∨ t.currentChunk + 1 < t.nchunks)
  | .save => t.startChunk = 0 ∧ (t.mem = [] → t.nchunks = 0) ∧
      (t.currentChunk + 1 < t.nchunks → t.mem.length = t.chunkSize)
  | .reload => t.stream.chunks = []

/-- The condition on a trace that was just saved: nothing of it is in memory, so another chunk has to
be loaded by the operation. -/
def Returns (t : ChunkedTrace) : TraceOp → Prop
  | .next _ | .advance => t.startChunk < t.currentChunk
  | .last | .forget => t.currentChunk + 1 < t.nchunks
  | .reload => True
  | .append _ | .appendSafe _ | .save => False

def StepMeets : Phase → ChunkedTrace → TraceOp → Prop
  | .unsaved, t, op => Keeps t op
  | .saved, t, op => Returns t op
  | .spent, t, op => op ≠ .save ∧ op ≠ .reload ∧ Keeps t op

/-- Every operation of the run meets the condition on the chunked trace before it. -/
def Meets : Phase → List TraceOp → ChunkedTrace → Prop
  | _, [], _ => True
  | phase, op :: ops, t => StepMeets phase t op ∧
      match chunkedDo op t with
      | .ok (_, t') => Meets (phase.after t op) ops t'
      | .error _ => True

section Contents

theorem flatNext_content (filter : UInt32) (t : FlatTrace) :
    flatNext filter (t.map TraceRecord.content) =
      ((flatNext filter t).1.map TraceRecord.content, (flatNext filter t).2.map TraceRecord.content) := by
  induction t with
  | nil => rfl
  | cons r t ih =>
      have same : r.content.matches filter = r.matches filter := rfl
      rw [List.map_cons, flatNext, flatNext, same]
      split
      · rfl
      · exact ih

variable {flat : FlatStore} {t : ChunkedTrace} {op : TraceOp} {C : Nat → List TraceRecord}

def Steps (op : TraceOp) (flat : FlatStore) (t : ChunkedTrace) : Prop :=
  ∃ out records t' C, flatDo op flat = .ok (out, { flat with t := records }) ∧
    chunkedDo op t = .ok (out.map TraceRecord.content, t') ∧
    Holds t' C (records.map TraceRecord.content)

theorem steps_next {filter : UInt32} (peekable : Peekable t (flat.t.map TraceRecord.content))
    (enough : (flat.t.map TraceRecord.content).length ≤ chunkedFuel t) :
    Steps (.next filter) flat t := by
  obtain ⟨t', C, next, front⟩ := peekable.next enough filter
  rw [flatNext_content] at next front
  exact ⟨_, _, t', C, rfl, next, front.holds⟩

theorem steps_advance (peekable : Peekable t (flat.t.map TraceRecord.content)) (some : flat.t ≠ []) :
    Steps .advance flat t := by
  obtain ⟨t', C, advanced, known, _⟩ := peekable.advance (by simpa using some)
  refine ⟨none, flat.t.tail, t', C, rfl, ?_, ?_⟩
  · simp only [chunkedDo, advanced, ok_bind, Option.map_none]
  · rw [List.map_tail]
    exact known

theorem steps_forget (forgets : ∃ t' C', chunkedForget t = .ok t' ∧
    Holds t' C' (flat.t.map TraceRecord.content).dropLast ∧ AtEnd t t') : Steps .forget flat t := by
  obtain ⟨t', C, forgot, known, _⟩ := forgets
  refine ⟨none, flat.t.dropLast, t', C, rfl, ?_, ?_⟩
  · simp only [chunkedDo, forgot, ok_bind, Option.map_none]
  · rw [List.map_dropLast]
    exact known

theorem steps_last (finds : ∃ t' C', chunkedLast t =
    .ok ((flat.t.map TraceRecord.content).getLast?, t') ∧
    Holds t' C' (flat.t.map TraceRecord.content)) : Steps .last flat t := by
  obtain ⟨t', C, found, known⟩ := finds
  rw [List.getLast?_map] at found
  exact ⟨_, flat.t, t', C, rfl, found, known⟩

theorem steps_append (r : TraceRecord) (known : Holds t C (flat.t.map TraceRecord.content))
    (last : t.nchunks ≤ t.currentChunk + 1) : Steps (.append r) flat t := by
  obtain ⟨t', C', appended, now, _⟩ := known.append last r
  refine ⟨none, flat.t ++ [r], t', C', rfl, ?_, ?_⟩
  · simp only [chunkedDo, appended, ok_bind, Option.map_none]
  · rw [List.map_append]
    exact now

theorem flat_filled (known : Holds t C (flat.t.map TraceRecord.content))
    (more : t.currentChunk = t.startChunk → t.mem ≠ [] ∨ t.currentChunk + 1 < t.nchunks) :
    flat.t ≠ [] := by
  intro none
  have nothing := known.records
  rw [none, List.map_nil, eq_comm, List.append_eq_nil_iff, List.append_eq_nil_iff] at nothing
  obtain ⟨_, empty, behind⟩ := nothing
  rcases Nat.eq_or_lt_of_le known.started with first | ahead
  · rcases more first.symm with filled | inner
    · exact filled empty
    · have next := known.stored (t.currentChunk + 1) (by omega) inner (by omega)
      rw [gather_cons inner, List.append_eq_nil_iff] at behind
      exact next.filled behind.1
  · exact known.ahead ahead empty

theorem holds_steps (known : Holds t C (flat.t.map TraceRecord.content)) (keeps : Keeps t op)
    (unsaved : op ≠ .save) (open_ : op ≠ .reload) : Steps op flat t := by
  cases op with
  | append r => exact steps_append r known keeps
  | appendSafe r => exact steps_append r known keeps
  | forget => exact steps_forget (known.forget keeps.1 keeps.2)
  | last =>
      obtain ⟨t', C', found, now, _⟩ := known.last keeps.1 keeps.2
      exact steps_last ⟨t', C', found, now⟩
  | next filter => exact steps_next (known.peekable keeps) known.enough
  | advance => exact steps_advance (known.peekable keeps.1) (flat_filled known keeps.2)
  | save => exact absurd rfl unsaved
  | reload => exact absurd rfl open_

theorem saved_turn (known : Saved t C (flat.t.map TraceRecord.content)) {j : Nat}
    (apart : t.currentChunk ≠ j) (inside : j < t.nchunks) (edge : j = t.startChunk ∨ j + 1 = t.nchunks) :
    ∃ t', setChunk t j = .ok t' ∧ Turned t j (flat.t.map TraceRecord.content) t' ∧
      t'.nchunks = t.nchunks := by
  have rests := known.rests
  rw [← known.start] at rests
  have turned := rests.turn apart (by rw [known.start]; exact Nat.zero_le j) inside edge
  rw [known.start, ← known.records] at turned
  exact turned

theorem saved_steps (known : Saved t C (flat.t.map TraceRecord.content)) (returns : Returns t op)
    (open_ : op ≠ .reload) : Steps op flat t := by
  have inside := known.inside
  have start := known.start
  have front : t.startChunk < t.currentChunk → Peekable t (flat.t.map TraceRecord.content) := by
    intro ahead
    obtain ⟨t', set, turned, _⟩ := saved_turn known (Nat.ne_of_gt ahead) (by omega) (.inl rfl)
    exact .inr ⟨ahead, t', set, turned⟩
  cases op with
  | append r => exact returns.elim
  | appendSafe r => exact returns.elim
  | save => exact returns.elim
  | reload => exact absurd rfl open_
  | next filter => exact steps_next (front returns) (known.records ▸ known.rests.enough)
  | advance =>
      refine steps_advance (front returns) ?_
      intro none
      have nothing := known.records
      rw [none, List.map_nil, gather_cons (by omega), eq_comm, List.append_eq_nil_iff] at nothing
      exact (known.rests.stored 0 (Nat.le_refl _) (by omega)).filled nothing.1
  | last =>
      have inner : t.currentChunk + 1 < t.nchunks := returns
      obtain ⟨t', set, turned, count⟩ := saved_turn known (j := t.nchunks - 1) (by omega) (by omega)
        (by omega)
      obtain ⟨C', now⟩ := turned.holds
      exact steps_last ⟨t', C', turned.chunkedLast_eq inner set count, now⟩
  | forget =>
      have inner : t.currentChunk + 1 < t.nchunks := returns
      obtain ⟨t', set, turned, count⟩ := saved_turn known (j := t.nchunks - 1) (by omega) (by omega)
        (by omega)
      exact steps_forget (turned.forget inner set count (by omega))

end Contents

section Run

/-- The two traces have the same records, and the stream of the flat trace has them as well if they
were just saved. -/
def Related : Phase → FlatStore → ChunkedTrace → Prop
  | .unsaved, flat, t => flat.written = [] ∧ ∃ C, Holds t C (flat.t.map TraceRecord.content)
  | .saved, flat, t => flat.written = encode flat.t ∧ ∃ C, Saved t C (flat.t.map TraceRecord.content)
  | .spent, flat, t => ∃ C, Holds t C (flat.t.map TraceRecord.content)

variable {flat : FlatStore} {t : ChunkedTrace} {op : TraceOp} {phase : Phase}

/-- An operation on both traces that returns the same record content. -/
def InStep (phase : Phase) (op : TraceOp) (flat : FlatStore) (t : ChunkedTrace) : Prop :=
  ∃ out flat' t', flatDo op flat = .ok (out, flat') ∧
    chunkedDo op t = .ok (out.map TraceRecord.content, t') ∧ Related phase flat' t'

theorem Steps.unsaved (steps : Steps op flat t) (fresh : flat.written = []) :
    InStep .unsaved op flat t := by
  obtain ⟨out, records, t', C, flatDone, chunkedDone, known⟩ := steps
  exact ⟨out, _, t', flatDone, chunkedDone, fresh, C, known⟩

theorem Steps.spent (steps : Steps op flat t) : InStep .spent op flat t := by
  obtain ⟨out, records, t', C, flatDone, chunkedDone, known⟩ := steps
  exact ⟨out, _, t', flatDone, chunkedDone, C, known⟩

theorem after_other (unsaved : op ≠ .save) (open_ : op ≠ .reload) :
    phase.after t op = if phase = .unsaved then .unsaved else .spent := by
  cases op <;> first | rfl | contradiction

theorem step_save {C : Nat → List TraceRecord} (known : Holds t C (flat.t.map TraceRecord.content))
    (fresh : flat.written = []) (keeps : Keeps t .save) :
    InStep (phase.after t .save) .save flat t := by
  obtain ⟨start, empty, full⟩ := keeps
  by_cases none : t.mem = []
  · obtain ⟨t', saved, now, _, nothing, _⟩ := known.save_empty none (empty none)
    have same : flat.t = [] := by simpa using nothing
    refine ⟨Option.none, _, t', rfl, by simp only [chunkedDo, saved, ok_bind, Option.map_none], ?_⟩
    simp only [Phase.after, none, List.isEmpty_nil, if_true, Related, fresh, same, flatSaveTo, encode,
      List.flatMap_nil, List.append_nil, true_and]
    exact ⟨C, same ▸ now⟩
  · obtain ⟨t', C', saved, now, _⟩ := known.save start none full
    have filled : t.mem.isEmpty = false := by simpa using none
    refine ⟨Option.none, _, t', rfl, by simp only [chunkedDo, saved, ok_bind, Option.map_none], ?_⟩
    simp only [Phase.after, filled, Bool.false_eq_true, if_false, Related, fresh, List.nil_append]
    exact ⟨rfl, C', now⟩

theorem step_related (related : Related phase flat t) (meets : StepMeets phase t op) :
    InStep (phase.after t op) op flat t := by
  cases phase with
  | unsaved =>
      obtain ⟨fresh, C, known⟩ := related
      by_cases saves : op = .save
      · subst saves
        exact step_save known fresh meets
      · by_cases opens : op = .reload
        · subst opens
          obtain ⟨t', reloaded, now, _⟩ := reload_empty known.room meets C
          refine ⟨none, ⟨[], []⟩, t', ?_, ?_, rfl, C, now⟩
          · rw [flatDo, fresh]
            rfl
          · simp only [chunkedDo, reloaded, ok_bind, Option.map_none]
        · rw [after_other saves opens, if_pos rfl]
          exact (holds_steps known meets saves opens).unsaved fresh
  | saved =>
      obtain ⟨written, C, known⟩ := related
      by_cases opens : op = .reload
      · subst opens
        obtain ⟨t', reloaded, now, _⟩ := known.reload
        refine ⟨none, ⟨flat.t, []⟩, t', ?_, ?_, rfl, C, now⟩
        · have loads := flatLoad_flatSaveTo flat.t
          rw [flatSaveTo] at loads
          rw [flatDo, written, loads, ok_bind]
        · simp only [chunkedDo, reloaded, ok_bind, Option.map_none]
      · have other : op ≠ .save := by
          rintro rfl
          exact meets
        rw [after_other other opens, if_neg (by decide)]
        exact (saved_steps known meets opens).spent
  | spent =>
      obtain ⟨C, known⟩ := related
      obtain ⟨other, opens, keeps⟩ := meets
      rw [after_other other opens, if_neg (by decide)]
      exact (holds_steps known keeps other opens).spent

/-- The records that a sequence of operations returns, one entry for each operation. -/
def flatOutputs : List TraceOp → FlatStore → Except Fault (List (Option TraceRecord))
  | [], _ => .ok []
  | op :: ops, flat => do
      let (out, flat) ← flatDo op flat
      let outs ← flatOutputs ops flat
      .ok (out :: outs)

def chunkedOutputs : List TraceOp → ChunkedTrace → Except Fault (List (Option TraceRecord))
  | [], _ => .ok []
  | op :: ops, t => do
      let (out, t) ← chunkedDo op t
      let outs ← chunkedOutputs ops t
      .ok (out :: outs)

theorem run_related {ops : List TraceOp} (related : Related phase flat t) (meets : Meets phase ops t) :
    ∃ outs, flatOutputs ops flat = .ok outs ∧
      chunkedOutputs ops t = .ok (outs.map (Option.map TraceRecord.content)) := by
  induction ops generalizing phase flat t with
  | nil => exact ⟨[], rfl, rfl⟩
  | cons op ops ih =>
      obtain ⟨meets, rest⟩ := meets
      obtain ⟨out, flat', t', flatDone, chunkedDone, related⟩ := step_related related meets
      rw [chunkedDone] at rest
      obtain ⟨outs, flatRest, chunkedRest⟩ := ih related rest
      refine ⟨out :: outs, ?_, ?_⟩
      · simp only [flatOutputs, flatDone, ok_bind, flatRest]
      · simp only [chunkedOutputs, chunkedDone, ok_bind, chunkedRest, List.map_cons]

end Run

def flatRun (ops : List TraceOp) : Except Fault (List (Option TraceRecord)) :=
  flatOutputs ops { t := [], written := [] }

def chunkedRun (chunkSize : Nat) (ops : List TraceOp) : Except Fault (List (Option TraceRecord)) := do
  let t ← chunkedCreate streamCreate chunkSize
  chunkedOutputs ops t

theorem newTrace_related {chunkSize : Nat} (room : 0 < chunkSize) :
    Related .unsaved { t := [], written := [] } (newTrace chunkSize) :=
  ⟨rfl, fun _ => [], holds_create room rfl rfl rfl (Nat.le_refl _) _⟩

/-- In a run whose operations all meet the condition the chunked trace returns what the flat trace
returns, and no assertion fails. -/
theorem chunked_in_step (chunkSize : Nat) (room : 0 < chunkSize) (ops : List TraceOp)
    (meets : Meets .unsaved ops (newTrace chunkSize)) :
    ∃ outs, flatRun ops = .ok outs ∧
      chunkedRun chunkSize ops = .ok (outs.map (Option.map TraceRecord.content)) := by
  rw [chunkedRun, chunkedCreate_eq room, ok_bind]
  exact run_related (newTrace_related room) meets

section Decide

instance (t : ChunkedTrace) : Decidable (Kept t) := inferInstanceAs (Decidable (_ → _))

instance (t : ChunkedTrace) (op : TraceOp) : Decidable (Keeps t op) :=
  match op with
  | .append _ | .appendSafe _ => inferInstanceAs (Decidable (_ ≤ _))
  | .next _ => inferInstanceAs (Decidable (_ → _))
  | .forget | .last | .advance | .save => inferInstanceAs (Decidable (_ ∧ _))
  | .reload => inferInstanceAs (Decidable (_ = _))

instance (t : ChunkedTrace) (op : TraceOp) : Decidable (Returns t op) :=
  match op with
  | .next _ | .advance | .last | .forget => inferInstanceAs (Decidable (_ < _))
  | .reload => isTrue trivial
  | .append _ | .appendSafe _ | .save => isFalse id

instance (phase : Phase) (t : ChunkedTrace) (op : TraceOp) : Decidable (StepMeets phase t op) :=
  match phase with
  | .unsaved => inferInstanceAs (Decidable (Keeps t op))
  | .saved => inferInstanceAs (Decidable (Returns t op))
  | .spent => inferInstanceAs (Decidable (_ ∧ _))

instance Meets.decidable : ∀ phase ops t, Decidable (Meets phase ops t)
  | _, [], _ => isTrue trivial
  | phase, op :: ops, t =>
      haveI : Decidable (match chunkedDo op t with
          | .ok (_, t') => Meets (phase.after t op) ops t'
          | .error _ => True) :=
        match chunkedDo op t with
        | .ok (_, t') => Meets.decidable (phase.after t op) ops t'
        | .error _ => isTrue trivial
      inferInstanceAs (Decidable (_ ∧ _))

end Decide

/-- The trace loses its second chunk again, gets a new one, is saved and read back across the chunks. -/
theorem chunked_in_step_reload : ∃ outs,
    flatRun [.append (plainRecord 1 1), .append (plainRecord 2 2), .append (plainRecord 1 3), .forget,
      .appendSafe (plainRecord 1 4), .last, .save, .reload, .next 1, .advance, .next 1, .last] =
      .ok outs ∧
    chunkedRun 2 [.append (plainRecord 1 1), .append (plainRecord 2 2), .append (plainRecord 1 3), .forget,
      .appendSafe (plainRecord 1 4), .last, .save, .reload, .next 1, .advance, .next 1, .last] =
      .ok (outs.map (Option.map TraceRecord.content)) :=
  chunked_in_step 2 (by decide) _ (by decide +kernel)

/-- The last record is asked for when both were consumed, and then while the first of two chunks is
partly consumed. -/
theorem consumed_chunk_returns :
    (flatRun [.append (plainRecord 1 1), .append (plainRecord 1 2), .next recordAny, .advance,
        .next recordAny, .advance, .last] =
      .ok [none, none, some (plainRecord 1 1), none, some (plainRecord 1 2), none, none] ∧
    chunkedRun 1 [.append (plainRecord 1 1), .append (plainRecord 1 2), .next recordAny, .advance,
        .next recordAny, .advance, .last] =
      .ok [none, none, some (plainRecord 1 1), none, some (plainRecord 1 2), none,
        some (plainRecord 1 1)]) ∧
    chunkedRun 2 [.append (plainRecord 1 1), .append (plainRecord 1 2), .append (plainRecord 1 3),
        .next recordAny, .advance, .last, .next recordAny] = .error .chunkedLoadSize := by
  decide +kernel

end Lotto.ChunkedRun
