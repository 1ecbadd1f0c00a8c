import Lotto.Ichpt

namespace Lotto.Ichpt

open Library.FaultRun Library.Comparator MemoryMap Race VecUnion

section History

def HandlerCall.raceEvent : HandlerCall → Option RaceEvent
  | .race cp clk => some (.capture cp clk)
  | .raceResume cp => some (.resume cp)
  | .ichpt _ _ => none

def HandlerCall.Attended : HandlerCall → Prop
  | .race cp _ | .raceResume cp | .ichpt cp _ => cp.id ≠ noTask

def Reported (config : RaceConfig) (calls : List HandlerCall) (m : Nat) (race : RaceT) : Prop :=
  ∃ cp clk s s', calls[m]? = some (.race cp clk) ∧
    run config ((calls.take m).filterMap HandlerCall.raceEvent) ∅ = .ok s ∧
    raceHandle config cp clk s = .ok (some race, s')

def Round.Found (round : Round) (calls : List HandlerCall) (sa : StableAddress) : Prop :=
  ∃ m race, Reported round.race calls m race ∧
    ∃ pc ∈ raceIchpts round.config race, round.config.address pc = sa

def Round.recorded (round : Round) : Bool := round.reason.any (·.isRecordFinal)

def typeOf (method : StableAddressMethod) : Bool := method == .map

/-- `_ichpt_handle` adds a mark to the event exactly if the instruction is known. -/
def Marked (round : Round) (known : StableAddress → Prop) (cp : RaceCapture) (e e' : IchptEvent) :
    Prop :=
  e'.skip = e.skip ∧ e'.readonly = e.readonly ∧
    (e'.isChpt = true ↔ e.isChpt = true ∨ e.skip = false ∧ e.readonly = false ∧
      round.config.enabled = true ∧ known (round.config.address cp.pc))

end History

variable (fresh : Nat → StableAddress) {qsort : List StableAddress → List StableAddress}
  {s : Vecs StableAddress} {v : Vec StableAddress} {left right : Nat} {kind : Bool}
  {sa item : StableAddress} {items : List StableAddress} {config : IchptConfig} {round : Round}
  {base : StableAddress → Prop} {past : List HandlerCall} {call : HandlerCall}

section Vectors

theorem contents_vecAdd (valid : v.Valid) (item : StableAddress) :
    contents (vecAdd fresh item v) = contents v ++ [item] ∧ (vecAdd fresh item v).Valid := by
  have room (cap : Nat) : contents { vecReserve fresh v cap with
      items := Function.update (vecReserve fresh v cap).items (vecReserve fresh v cap).cnt item
      cnt := (vecReserve fresh v cap).cnt + 1 } = contents v ++ [item] := by
    have kept := vecReserve_front fresh valid cap
    rw [← kept, vecReserve_cnt]
    exact front_update _ _ _
  rw [vecAdd]
  split
  next full =>
    refine ⟨room _, ?_⟩
    change v.cnt ≤ v.cap at valid
    have grown : v.cnt + 1 ≤ if v.cap = 0 then 8 else v.cap * 2 := by
      split <;> omega
    have more := vecReserve_cap fresh v (if v.cap = 0 then 8 else v.cap * 2)
    change (vecReserve fresh v _).cnt + 1 ≤ (vecReserve fresh v _).cap
    rw [vecReserve_cnt]
    exact Nat.le_trans grown more
  next free => exact ⟨front_update _ _ _, by change v.cnt + 1 ≤ v.cap; omega⟩

theorem contents_vecUnmarshal (items : List StableAddress) :
    contents (vecUnmarshal fresh items) = items ∧ (vecUnmarshal fresh items).Valid := by
  have all (items : List StableAddress) (v : Vec StableAddress) (valid : v.Valid) :
      contents (items.foldl (fun v item => vecAdd fresh item v) v) = contents v ++ items ∧
        (items.foldl (fun v item => vecAdd fresh item v) v).Valid := by
    induction items generalizing v with
    | nil => exact ⟨(List.append_nil _).symm, valid⟩
    | cons item items ih =>
        obtain ⟨text, valid⟩ := contents_vecAdd fresh valid item
        have rest := ih _ valid
        rw [text, List.append_assoc] at rest
        exact rest
  exact all items (vecInit fresh) (Nat.le_refl 0)

theorem vecUnion_classes (right : Nat) (sorts : Sorts stableAddressCompare qsort) (valid : (s left).Valid) :
    Classes stableAddressCompare (qsort (contents (s left) ++ contents (s right)))
        (contents (vecUnion fresh qsort stableAddressCompare left right s left)) ∧
      (vecUnion fresh qsort stableAddressCompare left right s left).Valid := by
  have text := contents_vecSort sorts (vecConcat fresh (s left) (s right))
  rw [contents_vecConcat valid] at text
  have sorted := (sorts (contents (s left) ++ contents (s right))).2
  rw [← text, contents, ← front, ← Nat.zero_add (vecSort qsort _).cnt] at sorted
  have written := unionLoop_written stableAddressCompare_order sorted
    ⟨Nat.le_refl 0, fun _ _ => rfl, Classes.nil stableAddressCompare⟩
  have here : vecUnion fresh qsort stableAddressCompare left right s left = _ :=
    Function.update_self _ _ _
  rw [Nat.zero_add] at written
  rw [here]
  refine ⟨text ▸ written.classes, ?_⟩
  have room := vecReserve_cap fresh (s left) ((s left).cnt + (s right).cnt)
  have count : (vecConcat fresh (s left) (s right)).cnt = (s left).cnt + (s right).cnt := by
    rw [vecConcat, vecReserve_cnt]
  exact Nat.le_trans (Nat.le_trans written.behind (Nat.le_of_eq count)) room

theorem ichptUnion_ok (left right : Nat) (kind : Bool)
    (sorts : Sorts stableAddressCompare qsort) (valid : (s left).Valid)
    (typed : ∀ sa ∈ contents (s left), sa.isMap = kind)
    (typed' : ∀ sa ∈ contents (s right), sa.isMap = kind) :
    ∃ s', ichptUnion fresh qsort left right s = .ok s' ∧ (s' left).Valid ∧
      (∀ sa, sa ∈ contents (s' left) ↔ sa ∈ contents (s left) ∨ sa ∈ contents (s right)) ∧
      ∀ other, other ≠ left → s' other = s other := by
  obtain ⟨classes, valid'⟩ := vecUnion_classes fresh right sorts valid
  have perm := (sorts (contents (s left) ++ contents (s right))).1
  refine ⟨_, ?_, valid', ?_, fun other differs => Function.update_of_ne differs _ _⟩
  · have all : ∀ sa ∈ contents (s left) ++ contents (s right), sa.isMap = kind := by
      intro sa member
      exact (List.mem_append.mp member).elim (typed sa) (typed' sa)
    have one : ((contents (s left) ++ contents (s right)).all (·.isMap) ||
        (contents (s left) ++ contents (s right)).all (!·.isMap)) = true := by
      rw [Bool.or_eq_true, List.all_eq_true, List.all_eq_true]
      cases kind with
      | true => exact .inl all
      | false => exact .inr fun sa member => by simp [all sa member]
    simp only [ichptUnion, one, check_true, ok_bind]
  · intro sa
    rw [← List.mem_append, ← perm.mem_iff]
    constructor
    · exact classes.inside sa
    · intro member
      obtain ⟨b, inside, same⟩ := classes.covers sa member
      rwa [stableAddressCompare_eq_zero.mp same]

end Vectors

section Handler

theorem address_typed (a : UInt64) :
    (config.address a).isMap = typeOf config.stableAddressMethod := by
  unfold IchptConfig.address
  cases config.stableAddressMethod <;> rfl

theorem ichptLoop_eq (typed : ∀ it ∈ items, it.isMap = sa.isMap) :
    ichptLoop sa items = .ok (decide (sa ∈ items)) := by
  induction items with
  | nil => rfl
  | cons it items ih =>
      have rest := ih fun it member => typed it (List.mem_cons_of_mem _ member)
      rw [ichptLoop, stableAddressEquals_same (typed it List.mem_cons_self), ok_bind, rest]
      by_cases same : it = sa
      · simp [same]
      · simp [same, Ne.symm same]

theorem isIchpt_eq (a : UInt64)
    (typed : ∀ sa ∈ contents (s ichptFinal), sa.isMap = typeOf config.stableAddressMethod) :
    isIchpt config a s = .ok (decide (config.address a ∈ contents (s ichptFinal))) := by
  apply ichptLoop_eq
  intro it member
  rw [typed it member, address_typed]

theorem addIchpt_ok (a : UInt64) (valid : (s ichptFinal).Valid)
    (typed : ∀ sa ∈ contents (s ichptFinal), sa.isMap = typeOf config.stableAddressMethod) :
    ∃ s', addIchpt fresh config a s = .ok s' ∧ (s' ichptFinal).Valid ∧
      ∀ sa, sa ∈ contents (s' ichptFinal) ↔ sa ∈ contents (s ichptFinal) ∨ sa = config.address a := by
  rw [addIchpt, isIchpt_eq a typed, ok_bind]
  by_cases known : config.address a ∈ contents (s ichptFinal)
  · rw [decide_eq_true known, if_pos rfl]
    refine ⟨s, rfl, valid, fun sa => ⟨.inl, ?_⟩⟩
    rintro (old | rfl)
    · exact old
    · exact known
  · rw [decide_eq_false known, if_neg (by decide)]
    obtain ⟨text, valid'⟩ := contents_vecAdd fresh valid (config.address a)
    refine ⟨_, rfl, ?_, ?_⟩
    · rw [Function.update_self]
      exact valid'
    · intro sa
      rw [Function.update_self, text, List.mem_append, List.mem_singleton]

theorem addIchpts_ok (pcs : List UInt64) (valid : (s ichptFinal).Valid)
    (typed : ∀ sa ∈ contents (s ichptFinal), sa.isMap = typeOf config.stableAddressMethod) :
    ∃ s', pcs.foldlM (fun vecs pc => addIchpt fresh config pc vecs) s = .ok s' ∧
      (s' ichptFinal).Valid ∧ ∀ sa, sa ∈ contents (s' ichptFinal) ↔
        sa ∈ contents (s ichptFinal) ∨ ∃ pc ∈ pcs, config.address pc = sa := by
  induction pcs generalizing s with
  | nil => exact ⟨s, rfl, valid, by simp⟩
  | cons pc pcs ih =>
      obtain ⟨one, first, valid, members⟩ := addIchpt_ok fresh pc valid typed
      have typed' : ∀ sa ∈ contents (one ichptFinal),
          sa.isMap = typeOf config.stableAddressMethod := by
        intro sa member
        rcases (members sa).mp member with old | rfl
        · exact typed sa old
        · exact address_typed pc
      obtain ⟨s', rest, valid', members'⟩ := ih valid typed'
      refine ⟨s', ?_, valid', ?_⟩
      · rw [List.foldlM_cons, first, ok_bind, rest]
      · intro sa
        rw [members', members, List.exists_mem_cons_iff, or_assoc, eq_comm (a := sa)]

theorem otCleanup_ok (clk : Nat) (items : List (Sigma fun _ : UInt64 => OtSet))
    (races : Map OtSet) : ∃ races', otCleanup true clk items races = .ok races' := by
  induction items generalizing races with
  | nil => exact ⟨races, rfl⟩
  | cons item next ih =>
      rw [otCleanup]
      split
      · exact ih (races.erase item.1)
      · exact ih races

theorem raceHandle_ok {race : RaceConfig} (kept : race.keepsFreed = true) (cp : RaceCapture)
    (clk : Nat) (races : Map OtSet) (task : cp.id ≠ noTask) :
    ∃ found races', raceHandle race cp clk races = .ok (found, races') := by
  simp only [raceHandle, bne_iff_ne.mpr task, check_true, ok_bind, kept]
  split
  · exact ⟨_, _, rfl⟩
  · split
    · exact ⟨_, _, rfl⟩
    · split
      · exact ⟨_, _, rfl⟩
      · split
        · obtain ⟨last, cleaned⟩ := otCleanup_ok clk (raceCheck race cp clk races).2.entries
            (raceCheck race cp clk races).2
          rw [cleaned, ok_bind]
          exact ⟨_, _, rfl⟩
        · exact ⟨_, _, rfl⟩

theorem raceResumeHandle_ok (race : RaceConfig) (cp : RaceCapture) (races : Map OtSet)
    (task : cp.id ≠ noTask) : ∃ races', raceResumeHandle race cp races = .ok races' := by
  simp only [raceResumeHandle, bne_iff_ne.mpr task, check_true, ok_bind]
  split
  · exact ⟨_, rfl⟩
  · split
    · split <;> exact ⟨_, rfl⟩
    · exact ⟨_, rfl⟩

theorem ichptHandle_ok (cp : RaceCapture) (e : IchptEvent) (task : cp.id ≠ noTask)
    (typed : ∀ sa ∈ contents (s ichptFinal), sa.isMap = typeOf round.config.stableAddressMethod) :
    ∃ e', ichptHandle round.config cp e s = .ok e' ∧
      Marked round (· ∈ contents (s ichptFinal)) cp e e' := by
  rw [ichptHandle]
  by_cases idle : (e.skip || !round.config.enabled) = true
  · rw [if_pos idle]
    refine ⟨e, rfl, rfl, rfl, .inl, ?_⟩
    rintro (marked | ⟨runs, -, enabled, -⟩)
    · exact marked
    · rw [runs, enabled] at idle
      cases idle
  · rw [if_neg idle, bne_iff_ne.mpr task, check_true, ok_bind]
    obtain ⟨runs, enabled⟩ : e.skip = false ∧ round.config.enabled = true := by simpa using idle
    cases readonly : e.readonly with
    | true =>
        refine ⟨e, rfl, rfl, rfl, .inl, ?_⟩
        rintro (marked | ⟨-, writes, -⟩)
        · exact marked
        · rw [readonly] at writes
          cases writes
    | false =>
        rw [if_neg (by decide), isIchpt_eq cp.pc typed, ok_bind]
        by_cases known : round.config.address cp.pc ∈ contents (s ichptFinal)
        · rw [decide_eq_true known, if_pos rfl]
          exact ⟨_, rfl, rfl, readonly.symm, fun _ => .inr ⟨runs, readonly, enabled, known⟩,
            fun _ => rfl⟩
        · rw [decide_eq_false known, if_neg (by decide)]
          refine ⟨e, rfl, rfl, rfl, .inl, ?_⟩
          rintro (marked | ⟨-, -, -, member⟩)
          · exact marked
          · exact absurd member known

end Handler

section Rounds

theorem run_concat (race : RaceConfig) (events : List RaceEvent) (event : RaceEvent)
    (races : Map OtSet) :
    run race (events ++ [event]) races = run race events races >>= step race event := by
  induction events generalizing races with
  | nil =>
      rw [List.nil_append, run, run, ok_bind]
      cases step race event races <;> rfl
  | cons first events ih =>
      rw [List.cons_append, run, run]
      cases next : step race first races with
      | error fault => rfl
      | ok races => exact ih races

/-- The instructions of a race in the last call are found besides those of the calls before. -/
theorem found_concat (round : Round) (past : List HandlerCall) (call : HandlerCall)
    (sa : StableAddress) : round.Found (past ++ [call]) sa ↔ round.Found past sa ∨
      ∃ cp clk races races' race, call = .race cp clk ∧
        run round.race (past.filterMap HandlerCall.raceEvent) ∅ = .ok races ∧
        raceHandle round.race cp clk races = .ok (some race, races') ∧
        ∃ pc ∈ raceIchpts round.config race, round.config.address pc = sa := by
  constructor
  · rintro ⟨m, race, ⟨cp, clk, races, races', here, ran, handled⟩, found⟩
    rcases Nat.lt_trichotomy m past.length with earlier | last | later
    · rw [List.getElem?_append_left earlier] at here
      rw [List.take_append_of_le_length (Nat.le_of_lt earlier)] at ran
      exact .inl ⟨m, race, ⟨cp, clk, races, races', here, ran, handled⟩, found⟩
    · rw [last, List.getElem?_concat_length] at here
      rw [last, List.take_left' rfl] at ran
      exact .inr ⟨cp, clk, races, races', race, Option.some.inj here, ran, handled, found⟩
    · rw [List.getElem?_eq_none (by simp; omega)] at here
      cases here
  · rintro (⟨m, race, ⟨cp, clk, races, races', here, ran, handled⟩, found⟩ |
      ⟨cp, clk, races, races', race, rfl, ran, handled, found⟩)
    · obtain ⟨earlier, -⟩ := List.getElem?_eq_some_iff.mp here
      refine ⟨m, race, ⟨cp, clk, races, races', ?_, ?_, handled⟩, found⟩
      · rw [List.getElem?_append_left earlier, here]
      · rw [List.take_append_of_le_length (Nat.le_of_lt earlier), ran]
    · refine ⟨past.length, race, ⟨cp, clk, races, races', ?_, ?_, handled⟩, found⟩
      · rw [List.getElem?_concat_length]
      · rw [List.take_left' rfl, ran]

theorem found_nil (round : Round) (sa : StableAddress) : ¬round.Found [] sa := by
  rintro ⟨m, race, ⟨cp, clk, races, races', here, -⟩, -⟩
  cases here

structure Inv (round : Round) (base : StableAddress → Prop) (past : List HandlerCall)
    (s : EngineState) : Prop where
  valid : (s.vecs ichptFinal).Valid
  known : ∀ sa, sa ∈ contents (s.vecs ichptFinal) ↔ base sa ∨ round.Found past sa
  races : run round.race (past.filterMap HandlerCall.raceEvent) ∅ = .ok s.races

variable {s : EngineState}

theorem Inv.typed (inv : Inv round base past s)
    (typed : ∀ sa, base sa → sa.isMap = typeOf round.config.stableAddressMethod) :
    ∀ sa ∈ contents (s.vecs ichptFinal), sa.isMap = typeOf round.config.stableAddressMethod := by
  intro sa member
  rcases (inv.known sa).mp member with start | ⟨m, race, -, pc, -, rfl⟩
  · exact typed sa start
  · exact address_typed pc

theorem handlerStep_ok (inv : Inv round base past s)
    (typed : ∀ sa, base sa → sa.isMap = typeOf round.config.stableAddressMethod)
    (kept : round.race.keepsFreed = true) (task : call.Attended) : ∃ e s', handlerStep fresh round call s = .ok (e, s') ∧
      Inv round base (past ++ [call]) s' ∧ ∀ cp event, call = .ichpt cp event →
        ∃ event', e = some event' ∧
          Marked round (fun sa => base sa ∨ round.Found past sa) cp event event' := by
  have known := inv.typed typed
  cases call with
  | race cp clk =>
      obtain ⟨race, races, handled⟩ := raceHandle_ok kept cp clk s.races task
      obtain ⟨vecs, added, valid, members⟩ := addIchpts_ok fresh
        ((race.map (raceIchpts round.config)).getD []) inv.valid known
      refine ⟨none, ⟨vecs, races⟩, ?_, ⟨valid, ?_, ?_⟩, by rintro cp event ⟨⟩⟩
      · simp only [handlerStep, handled, ok_bind, added]
      · intro sa
        rw [members, inv.known, found_concat, or_assoc]
        refine or_congr_right (or_congr_right ?_)
        constructor
        · rintro ⟨pc, member, same⟩
          cases race with
          | none => cases member
          | some race => exact ⟨cp, clk, s.races, races, race, rfl, inv.races, handled, pc, member, same⟩
        · rintro ⟨cp', clk', races₁, races₂, race', call, ran, handled', pc, member, same⟩
          cases call
          rw [inv.races] at ran
          cases ran
          rw [handled] at handled'
          cases handled'
          exact ⟨pc, member, same⟩
      · rw [List.filterMap_append]
        have last := run_concat round.race (past.filterMap HandlerCall.raceEvent)
          (.capture cp clk) ∅
        rw [inv.races, ok_bind, step, handled, ok_bind] at last
        exact last
  | raceResume cp =>
      obtain ⟨races, handled⟩ := raceResumeHandle_ok round.race cp s.races task
      refine ⟨none, { s with races }, ?_, ⟨inv.valid, ?_, ?_⟩, by rintro cp event ⟨⟩⟩
      · simp only [handlerStep, handled, ok_bind]
      · intro sa
        rw [found_concat]
        simp [inv.known]
      · rw [List.filterMap_append]
        have last := run_concat round.race (past.filterMap HandlerCall.raceEvent) (.resume cp) ∅
        rw [inv.races, ok_bind, step, handled] at last
        exact last
  | ichpt cp event =>
      obtain ⟨event', handled, marked⟩ := ichptHandle_ok cp event task known
      refine ⟨some event', s, ?_, ⟨inv.valid, ?_, ?_⟩, ?_⟩
      · simp only [handlerStep, handled, ok_bind]
      · intro sa
        rw [found_concat]
        simp [inv.known]
      · have none : [HandlerCall.ichpt cp event].filterMap HandlerCall.raceEvent = [] := rfl
        rw [List.filterMap_append, none, List.append_nil]
        exact inv.races
      · rintro cp' event'' ⟨⟩
        refine ⟨event', rfl, ?_⟩
        simpa only [Marked, inv.known] using marked

theorem engineRun_ok (calls : List HandlerCall) (inv : Inv round base past s)
    (typed : ∀ sa, base sa → sa.isMap = typeOf round.config.stableAddressMethod)
    (kept : round.race.keepsFreed = true) (tasks : ∀ call ∈ calls, call.Attended) :
    ∃ es s', engineRun fresh round calls s = .ok (es, s') ∧ Inv round base (past ++ calls) s' ∧
      ∀ n cp e, calls[n]? = some (.ichpt cp e) → ∃ e', es[n]? = some (some e') ∧
        Marked round (fun sa => base sa ∨ round.Found (past ++ calls.take n) sa) cp e e' := by
  induction calls generalizing past s with
  | nil => exact ⟨[], s, rfl, by rwa [List.append_nil], by simp⟩
  | cons call calls ih =>
      obtain ⟨e, one, first, inv', marks⟩ :=
        handlerStep_ok fresh inv typed kept (tasks call List.mem_cons_self)
      obtain ⟨es, s', rest, done, marks'⟩ :=
        ih inv' fun call member => tasks call (List.mem_cons_of_mem _ member)
      refine ⟨e :: es, s', ?_, ?_, ?_⟩
      · simp only [engineRun, first, ok_bind, rest]
      · simpa using done
      · intro n cp event here
        cases n with
        | zero =>
            obtain ⟨event', rfl, marked⟩ := marks cp event (Option.some.inj here)
            exact ⟨event', rfl, by simpa using marked⟩
        | succ n =>
            obtain ⟨event', found, marked⟩ := marks' n cp event here
            exact ⟨event', found, by simpa using marked⟩

end Rounds

end Lotto.Ichpt
