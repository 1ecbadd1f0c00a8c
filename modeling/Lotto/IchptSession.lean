import Lotto.IchptRun
import Lotto.MemoryMapFormat

namespace Lotto.Ichpt

open Library.FaultRun Library.Comparator MemoryMap Race VecUnion

variable (fresh : Nat → StableAddress) {qsort : List StableAddress → List StableAddress}
  {kind : Bool} {items : List StableAddress} {round : Round} {base : StableAddress → Prop}

section Sessions

variable {input : Option (List StableAddress)} {rounds : List Round}
  {vecs : Vecs StableAddress}

/-- What is known to the driver before a round: the input may have to be adjusted to. -/
structure Driver (input : Option (List StableAddress)) (base : StableAddress → Prop)
    (vecs : Vecs StableAddress) : Prop where
  valid : ∀ v, (vecs v).Valid
  initial : ∀ sa ∈ contents (vecs ichptInitial), base sa
  final : ∀ sa ∈ contents (vecs ichptFinal), base sa
  covered : ∀ sa, base sa → sa ∈ contents (vecs ichptInitial) ∨ sa ∈ input.getD []

theorem Driver.later (driver : Driver none base vecs) : Driver input base vecs :=
  ⟨driver.valid, driver.initial, driver.final,
    fun sa known => .inl ((driver.covered sa known).resolve_right (by simp))⟩

def restored (final : Option (Option (List StableAddress))) : List StableAddress :=
  (final.bind id).getD []

theorem adjust_ok (sorts : Sorts stableAddressCompare qsort)
    (final : Option (Option (List StableAddress))) (valid : ∀ v, (vecs v).Valid)
    (initial : ∀ sa ∈ contents (vecs ichptInitial), sa.isMap = kind)
    (last : ∀ sa ∈ contents (vecs ichptFinal), sa.isMap = kind)
    (items : ∀ sa ∈ restored final, sa.isMap = kind) :
    ∃ vecs', adjust fresh qsort final vecs = .ok vecs' ∧ (∀ v, (vecs' v).Valid) ∧
      (∀ sa, sa ∈ contents (vecs ichptInitial) ∨ sa ∈ restored final →
        sa ∈ contents (vecs' ichptInitial)) ∧
      (∀ sa ∈ contents (vecs' ichptInitial), sa ∈ contents (vecs ichptInitial) ∨
        sa ∈ contents (vecs ichptFinal) ∨ sa ∈ restored final) ∧
      ∀ sa ∈ contents (vecs' ichptFinal), sa ∈ contents (vecs ichptFinal) ∨ sa ∈ restored final := by
  -- the vectors after the FINAL states, if there are any, and the union that follows
  have joined (loaded : Vecs StableAddress) (valid : ∀ v, (loaded v).Valid)
      (same : loaded ichptInitial = vecs ichptInitial)
      (holds : ∀ sa ∈ contents (loaded ichptFinal),
        sa ∈ contents (vecs ichptFinal) ∨ sa ∈ restored final)
      (all : ∀ sa ∈ restored final, sa ∈ contents (loaded ichptFinal)) :
      ∃ vecs', ichptUnion fresh qsort ichptInitial ichptFinal loaded = .ok vecs' ∧
        (∀ v, (vecs' v).Valid) ∧
        (∀ sa, sa ∈ contents (vecs ichptInitial) ∨ sa ∈ restored final →
          sa ∈ contents (vecs' ichptInitial)) ∧
        (∀ sa ∈ contents (vecs' ichptInitial), sa ∈ contents (vecs ichptInitial) ∨
          sa ∈ contents (vecs ichptFinal) ∨ sa ∈ restored final) ∧
        ∀ sa ∈ contents (vecs' ichptFinal),
          sa ∈ contents (vecs ichptFinal) ∨ sa ∈ restored final := by
    obtain ⟨vecs', union, valid', members, others⟩ := ichptUnion_ok fresh
      ichptInitial ichptFinal kind sorts (valid ichptInitial) (by rwa [same])
      (fun sa member => (holds sa member).elim (last sa) (items sa))
    refine ⟨vecs', union, ?_, ?_, ?_, ?_⟩
    · intro v
      by_cases here : v = ichptInitial
      · rwa [here]
      · rw [others v here]
        exact valid v
    · rintro sa (old | new)
      · exact (members sa).mpr (.inl (same ▸ old))
      · exact (members sa).mpr (.inr (all sa new))
    · intro sa member
      rcases (members sa).mp member with old | new
      · exact .inl (same ▸ old)
      · exact .inr (holds sa new)
    · intro sa member
      rw [others ichptFinal (by decide)] at member
      exact holds sa member
  rcases final with _ | _ | found
  · exact ⟨vecs, rfl, valid, fun sa => by simp [restored], fun sa => .inl, fun sa => .inl⟩
  · exact joined vecs valid rfl (fun sa => .inl) (by simp [restored])
  · obtain ⟨text, room⟩ := contents_vecUnmarshal fresh found
    apply joined (Function.update vecs ichptFinal (vecUnmarshal fresh found))
    · intro v
      by_cases here : v = ichptFinal
      · rwa [here, Function.update_self]
      · rw [Function.update_of_ne here]
        exact valid v
    · exact Function.update_of_ne (by decide) _ _
    · intro sa member
      rw [Function.update_self, text] at member
      exact .inr member
    · intro sa member
      rw [Function.update_self, text]
      exact member

theorem engineStart_ok (sorts : Sorts stableAddressCompare qsort) (round : Round)
    (known : ∀ sa, sa ∈ items ↔ base sa) (typed : ∀ sa, base sa → sa.isMap = kind) :
    ∃ s, engineStart fresh qsort items = .ok s ∧ Inv round base [] s := by
  obtain ⟨text, -⟩ := contents_vecUnmarshal fresh items
  have empty : contents (Function.update (ichptStart fresh) ichptInitial
      (vecUnmarshal fresh items) ichptFinal) = [] := by
    rw [Function.update_of_ne (by decide)]
    rfl
  have full : contents (Function.update (ichptStart fresh) ichptInitial
      (vecUnmarshal fresh items) ichptInitial) = items := by
    rw [Function.update_self, text]
  obtain ⟨vecs, union, valid, members, -⟩ := ichptUnion_ok fresh
    ichptFinal ichptInitial kind sorts
    (show (Function.update (ichptStart fresh) ichptInitial (vecUnmarshal fresh items)
      ichptFinal).Valid by rw [Function.update_of_ne (by decide)]; exact Nat.le_refl 0) (by simp [empty])
    (fun sa member => typed sa ((known sa).mp (full ▸ member)))
  refine ⟨⟨vecs, ∅⟩, ?_, valid, ?_, rfl⟩
  · simp only [engineStart, union, ok_bind]
  · intro sa
    rw [members, empty, full, known]
    simp [found_nil]

/-- A run in a session: the marks that it gets, and what the driver and the engine know behind it. -/
theorem runOnce_ok (sorts : Sorts stableAddressCompare qsort) (driver : Driver input base vecs)
    (typed : ∀ sa, base sa → sa.isMap = typeOf round.config.stableAddressMethod)
    (given : ∀ sa ∈ input.getD [], base sa) (kept : round.race.keepsFreed = true)
    (tasks : ∀ call ∈ round.calls, call.Attended) : ∃ es engine vecs', runOnce fresh qsort input round vecs = .ok (es, engine, vecs') ∧
      Driver none base vecs' ∧ Inv round base round.calls engine ∧
      ∀ n cp e, round.calls[n]? = some (.ichpt cp e) → ∃ e', es[n]? = some (some e') ∧
        Marked round (fun sa => base sa ∨ round.Found (round.calls.take n) sa) cp e e' := by
  have items : restored (input.map some) = input.getD [] := by cases input <;> rfl
  obtain ⟨vecs', adjusted, valid, more, less, last⟩ := adjust_ok fresh sorts
    (input.map some) driver.valid (fun sa member => typed sa (driver.initial sa member))
    (fun sa member => typed sa (driver.final sa member))
    (fun sa member => typed sa (given sa (items ▸ member)))
  rw [items] at more less last
  have initial : ∀ sa, sa ∈ contents (vecs' ichptInitial) ↔ base sa := by
    intro sa
    constructor
    · intro member
      rcases less sa member with old | old | new
      · exact driver.initial sa old
      · exact driver.final sa old
      · exact given sa new
    · exact fun known => more sa (driver.covered sa known)
  obtain ⟨start, started, inv⟩ :=
    engineStart_ok fresh sorts round initial typed
  obtain ⟨es, engine, ran, inv', marks⟩ :=
    engineRun_ok fresh round.calls inv typed kept tasks
  refine ⟨es, engine, vecs', ?_, ⟨valid, fun sa => (initial sa).mp, ?_, ?_⟩, inv', marks⟩
  · simp only [runOnce, adjusted, ok_bind, started, ran]
  · intro sa member
    exact (last sa member).elim (driver.final sa) (given sa)
  · exact fun sa known => .inl ((initial sa).mpr known)

theorem record_ok (sorts : Sorts stableAddressCompare qsort) (driver : Driver none base vecs)
    (typed : ∀ sa, base sa → sa.isMap = typeOf round.config.stableAddressMethod)
    {engine : EngineState} (inv : Inv round base round.calls engine) :
    ∃ vecs', adjust fresh qsort (finalRecord round engine) vecs = .ok vecs' ∧
      Driver none (fun sa => base sa ∨ round.recorded = true ∧ round.Found round.calls sa) vecs' := by
  have known : ∀ sa, sa ∈ restored (finalRecord round engine) ↔
      round.recorded = true ∧ (base sa ∨ round.Found round.calls sa) := by
    intro sa
    rw [← inv.known]
    unfold finalRecord Round.recorded
    cases round.reason with
    | none => simp [restored]
    | some reason => cases saved : reason.isRecordFinal <;> simp [restored, saved]
  have all := inv.typed typed
  obtain ⟨vecs', adjusted, valid, more, less, last⟩ := adjust_ok fresh sorts
    (finalRecord round engine) driver.valid (fun sa member => typed sa (driver.initial sa member))
    (fun sa member => typed sa (driver.final sa member))
    (fun sa member => all sa ((inv.known sa).mpr ((known sa).mp member).2))
  refine ⟨vecs', adjusted, valid, ?_, ?_, ?_⟩
  · intro sa member
    rcases less sa member with old | old | new
    · exact .inl (driver.initial sa old)
    · exact .inl (driver.final sa old)
    · exact ((known sa).mp new).2.imp_right fun found => ⟨((known sa).mp new).1, found⟩
  · intro sa member
    rcases last sa member with old | new
    · exact .inl (driver.final sa old)
    · exact ((known sa).mp new).2.imp_right fun found => ⟨((known sa).mp new).1, found⟩
  · rintro sa (old | ⟨recorded, found⟩)
    · exact .inl (more sa (.inl ((driver.covered sa old).resolve_right (by simp))))
    · exact .inl (more sa (.inr ((known sa).mpr ⟨recorded, .inr found⟩)))

def Known (base : StableAddress → Prop) (rounds : List Round) (k : Nat) (round : Round) (n : Nat)
    (sa : StableAddress) : Prop :=
  base sa ∨ (∃ j < k, ∃ earlier, rounds[j]? = some earlier ∧ earlier.recorded = true ∧
    earlier.Found earlier.calls sa) ∨ round.Found (round.calls.take n) sa

theorem known_succ (base : StableAddress → Prop) (first : Round) (rounds : List Round) (k : Nat)
    (round : Round) (n : Nat) : Known base (first :: rounds) (k + 1) round n =
      Known (fun sa => base sa ∨ first.recorded = true ∧ first.Found first.calls sa)
        rounds k round n := by
  funext sa
  apply propext
  unfold Known
  rw [or_assoc (a := base sa)]
  refine or_congr_right ?_
  rw [← or_assoc]
  refine or_congr_left ?_
  constructor
  · rintro ⟨j, below, earlier, here, found⟩
    cases j with
    | zero =>
        cases here
        exact .inl found
    | succ j => exact .inr ⟨j, by omega, earlier, here, found⟩
  · rintro (found | ⟨j, below, earlier, here, found⟩)
    · exact ⟨0, by omega, first, rfl, found⟩
    · exact ⟨j + 1, by omega, earlier, here, found⟩

theorem stressLoop_ok (sorts : Sorts stableAddressCompare qsort) (driver : Driver input base vecs)
    (typed : ∀ sa, base sa → sa.isMap = kind) (given : ∀ sa ∈ input.getD [], base sa)
    (methods : ∀ round ∈ rounds, typeOf round.config.stableAddressMethod = kind)
    (kept : ∀ round ∈ rounds, round.race.keepsFreed = true)
    (tasks : ∀ round ∈ rounds, ∀ call ∈ round.calls, call.Attended)
    (several : Bool) (alone : several = false → rounds.length ≤ 1) :
    ∃ out, stressLoop fresh qsort input several rounds vecs = .ok out ∧
      (∀ k, k < out.length ↔ k < rounds.length ∧
        ∀ j < k, ∀ earlier, rounds[j]? = some earlier → earlier.err = false) ∧
      ∀ k round es, rounds[k]? = some round → out[k]? = some es →
        ∀ n cp e, round.calls[n]? = some (.ichpt cp e) →
          ∃ e', es[n]? = some (some e') ∧ Marked round (Known base rounds k round n) cp e e' := by
  induction rounds generalizing vecs base with
  | nil => exact ⟨[], rfl, by simp, by simp⟩
  | cons round rounds ih =>
      have method := methods round List.mem_cons_self
      obtain ⟨es, engine, vecs₁, ran, driver₁, inv, marks⟩ := runOnce_ok fresh sorts
        driver (by rwa [method]) given (kept round List.mem_cons_self) (tasks round List.mem_cons_self)
      have own : ∀ n cp e, round.calls[n]? = some (.ichpt cp e) → ∃ e', es[n]? = some (some e') ∧
          Marked round (Known base (round :: rounds) 0 round n) cp e e' := by
        intro n cp e here
        obtain ⟨e', found, marked⟩ := marks n cp e here
        refine ⟨e', found, ?_⟩
        simpa [Marked, Known] using marked
      simp only [stressLoop, ran, ok_bind]
      by_cases err : round.err = true
      · rw [if_pos err]
        refine ⟨[es], rfl, ?_, ?_⟩
        · intro k
          cases k with
          | zero => simp
          | succ k =>
              refine ⟨fun below => absurd below (by simp), ?_⟩
              rintro ⟨-, fine⟩
              have first := fine 0 (by omega) round rfl
              rw [err] at first
              cases first
        · intro k round' es' here out
          cases k with
          | zero =>
              cases here
              cases out
              exact own
          | succ k => cases out
      · rw [if_neg err]
        have next : ∃ out, (if several = true then do
              let s ← adjust fresh qsort (finalRecord round engine) vecs₁
              let more ← stressLoop fresh qsort input several rounds s
              .ok (es :: more)
            else do
              let more ← stressLoop fresh qsort input several rounds vecs₁
              .ok (es :: more)) = .ok (es :: out) ∧
            (∀ k, k < out.length ↔ k < rounds.length ∧
              ∀ j < k, ∀ earlier, rounds[j]? = some earlier → earlier.err = false) ∧
            ∀ k round' es, rounds[k]? = some round' → out[k]? = some es →
              ∀ n cp e, round'.calls[n]? = some (.ichpt cp e) → ∃ e', es[n]? = some (some e') ∧
                Marked round' (Known base (round :: rounds) (k + 1) round' n) cp e e' := by
          cases several with
          | false =>
              have none : rounds = [] := by
                have length := alone rfl
                exact List.eq_nil_of_length_eq_zero (by simpa using length)
              subst none
              exact ⟨[], rfl, by simp, by simp⟩
          | true =>
              obtain ⟨vecs₂, adjusted, driver₂⟩ :=
                record_ok fresh sorts driver₁ (by rwa [method]) inv
              obtain ⟨out, looped, count, marks'⟩ := ih driver₂.later (by
                  rintro sa (old | ⟨-, m, race, -, pc, -, rfl⟩)
                  · exact typed sa old
                  · rw [address_typed, method])
                (fun sa member => .inl (given sa member))
                (fun later member => methods later (List.mem_cons_of_mem _ member))
                (fun later member => kept later (List.mem_cons_of_mem _ member))
                (fun later member => tasks later (List.mem_cons_of_mem _ member)) (by simp)
              refine ⟨out, ?_, count, ?_⟩
              · rw [if_pos rfl, adjusted, ok_bind, looped, ok_bind]
              · intro k round' es' here found
                simp only [known_succ]
                exact marks' k round' es' here found
        obtain ⟨out, looped, count, marks'⟩ := next
        refine ⟨es :: out, looped, ?_, ?_⟩
        · intro k
          cases k with
          | zero => simp
          | succ k =>
              rw [List.length_cons, List.length_cons, Nat.succ_lt_succ_iff, Nat.succ_lt_succ_iff,
                count]
              refine and_congr_right fun _ => ⟨fun fine j below earlier here => ?_,
                fun fine j below => fine (j + 1) (by omega)⟩
              cases j with
              | zero =>
                  cases here
                  exact Bool.eq_false_iff.mpr err
              | succ j => exact fine j (by omega) earlier here
        · intro k round' es' here found
          cases k with
          | zero =>
              cases here
              cases found
              exact own
          | succ k => exact marks' k round' es' here found

/-- The stable addresses of a session are of one type, its calls are of tasks, and the allocator leaves
a freed item as it was until the next allocation. -/
structure Uniform (kind : Bool) (input : Option (List StableAddress)) (rounds : List Round) :
    Prop where
  given : ∀ sa ∈ input.getD [], sa.isMap = kind
  methods : ∀ round ∈ rounds, typeOf round.config.stableAddressMethod = kind
  kept : ∀ round ∈ rounds, round.race.keepsFreed = true
  tasks : ∀ round ∈ rounds, ∀ call ∈ round.calls, call.Attended

theorem driver_start (input : Option (List StableAddress)) :
    Driver input (· ∈ input.getD []) (ichptStart fresh) :=
  ⟨fun _ => Nat.le_refl 0, by simp [contents, ichptStart, vecInit],
    by simp [contents, ichptStart, vecInit], fun _ => .inr⟩

/-- `stress` never fails an assertion of the module, goes on until a run returns an error, and in
every run an instruction is a change point exactly if its stable address was in the input, or was
found in a race of an earlier run that recorded it, or in a race of the run itself so far. -/
theorem stress_change_points (fresh : Nat → StableAddress)
    (qsort : List StableAddress → List StableAddress) (sorts : Sorts stableAddressCompare qsort)
    (kind : Bool) (input : Option (List StableAddress)) (rounds : List Round)
    (uniform : Uniform kind input rounds) :
    ∃ out, stress fresh qsort input rounds = .ok out ∧
      (∀ k, k < out.length ↔ k < rounds.length ∧
        ∀ j < k, ∀ earlier, rounds[j]? = some earlier → earlier.err = false) ∧
      ∀ k round es, rounds[k]? = some round → out[k]? = some es →
        ∀ n cp e, round.calls[n]? = some (.ichpt cp e) → ∃ e', es[n]? = some (some e') ∧
          Marked round (Known (· ∈ input.getD []) rounds k round n) cp e e' := by
  apply stressLoop_ok fresh sorts (driver_start fresh input) uniform.given (fun _ => id) uniform.methods
    uniform.kept uniform.tasks
  simp

def Mapped (lines : List MapsLine) (round : Round) : Prop :=
  AddressSpace lines ∧ round.config.stableAddressMethod = .map ∧
    memoryMapParse (lines.map MapsLine.text) = .ok round.config.maps

def PlacedAt (lines : List MapsLine) (pc : UInt64) (name : List UInt8) (position : Nat) : Prop :=
  pc.toNat < longMax ∧ ∃ l ∈ lines, l.Holds pc ∧ l.name = name ∧ l.position pc = position

theorem Mapped.address {lines : List MapsLine} {pc : UInt64} {name : List UInt8} {position : Nat}
    (mapped : Mapped lines round) (placed : PlacedAt lines pc name position) :
    round.config.address pc = .map ⟨UInt64.ofNat position, name⟩ := by
  obtain ⟨space, method, parsed⟩ := mapped
  obtain ⟨user, l, member, inside, rfl, rfl⟩ := placed
  rw [memoryMapParse_text lines space.formed] at parsed
  rw [IchptConfig.address, method, ← Except.ok.inj parsed]
  exact space.stableAddressGet_map member inside user

/-- An instruction of a file that a recorded run has found in a race is a change point in every later
run, wherever that run has mapped the file. -/
theorem racy_instruction_stays (fresh : Nat → StableAddress)
    (qsort : List StableAddress → List StableAddress) (sorts : Sorts stableAddressCompare qsort)
    (input : Option (List StableAddress)) (rounds : List Round)
    (uniform : Uniform true input rounds) (lines : Nat → List MapsLine)
    (mapped : ∀ k round, rounds[k]? = some round → Mapped (lines k) round) :
    ∃ out, stress fresh qsort input rounds = .ok out ∧
      ∀ (j k : Nat) (earlier round : Round) (es : List (Option IchptEvent)), j < k →
        rounds[j]? = some earlier → rounds[k]? = some round → out[k]? = some es →
        earlier.recorded = true → ∀ (name : List UInt8) (position m : Nat) (race : RaceT),
        Reported earlier.race earlier.calls m race →
        (∃ pc ∈ raceIchpts earlier.config race, PlacedAt (lines j) pc name position) →
        ∀ (n : Nat) (cp : RaceCapture) (e : IchptEvent), round.calls[n]? = some (.ichpt cp e) →
        PlacedAt (lines k) cp.pc name position → e.skip = false → e.readonly = false →
        round.config.enabled = true → ∃ e', es[n]? = some (some e') ∧ e'.isChpt = true := by
  obtain ⟨out, ran, -, marks⟩ := stressLoop_ok fresh sorts (driver_start fresh input)
    uniform.given (fun _ => id) uniform.methods uniform.kept uniform.tasks
    (decide (1 < rounds.length)) (by simp)
  refine ⟨out, ran, ?_⟩
  intro j k earlier round es before here there found recorded name position m race reported racy
    n cp e call placed runs writes enabled
  obtain ⟨pc, member, place⟩ := racy
  obtain ⟨e', event, -, -, marked⟩ := marks k round es there found n cp e call
  refine ⟨e', event, marked.mpr (.inr ⟨runs, writes, enabled, .inr (.inl ?_)⟩)⟩
  refine ⟨j, before, earlier, here, recorded, m, race, reported, pc, member, ?_⟩
  rw [(mapped j earlier here).address place, (mapped k round there).address placed]

end Sessions

section Samples

def sortBy (compar : StableAddress → StableAddress → Int) (l : List StableAddress) :
    List StableAddress :=
  l.mergeSort fun a b => decide (compar a b ≤ 0)

theorem sortBy_sorts {compar : StableAddress → StableAddress → Int} (order : TotalOrder compar) :
    Sorts compar (sortBy compar) := by
  intro l
  refine ⟨List.mergeSort_perm l _, ?_⟩
  have sorted : (sortBy compar l).Pairwise fun a b => decide (compar a b ≤ 0) = true := by
    apply List.pairwise_mergeSort
    · intro a b c
      simp only [decide_eq_true_iff]
      exact order.trans a b c
    · intro a b
      have swap := order.swap b a
      simp only [Bool.or_eq_true, decide_eq_true_iff]
      omega
  exact sorted.imp fun le => of_decide_eq_true le

def sampleAccess (kind : EventType) (id : TaskId) (pc : UInt64) : RaceCapture :=
  ⟨false, kind, id, noTask, pc, 4096⟩

def sampleRound (start : Nat) (calls : List HandlerCall) : Round where
  config := ⟨true, false, .map, (sampleLines start).map MapsLine.entry⟩
  race := ⟨true, false, true⟩
  calls := calls
  reason := some .success
  err := false

def sampleRounds : List Round :=
  [sampleRound 20480 [.race (sampleAccess .maWrite 1 20496) 1, .race (sampleAccess .maRead 2 20512) 2],
    sampleRound 36864 [.ichpt (sampleAccess .maWrite 3 36880) ⟨false, false, false⟩]]

theorem sampleRounds_uniform : Uniform true none sampleRounds where
  given := by simp
  methods := by simp [sampleRounds, sampleRound, typeOf]
  kept := by simp [sampleRounds, sampleRound]
  tasks := by simp [sampleRounds, sampleRound, sampleAccess, HandlerCall.Attended, noTask]

theorem sample_reported : Reported (sampleRound 20480 []).race
    [.race (sampleAccess .maWrite 1 20496) 1, .race (sampleAccess .maRead 2 20512) 2] 1
    ⟨4096, ⟨2, 20512, true⟩, ⟨1, 20496, false⟩⟩ :=
  ⟨_, _, _, _, rfl, rfl, rfl⟩

theorem sample_second : ∃ out,
    stress (fun _ => .ptr 0) (sortBy stableAddressCompare) none sampleRounds = .ok out ∧
      1 < out.length := by
  obtain ⟨out, ran, count, -⟩ := stressLoop_ok (fun _ => .ptr 0)
    (sortBy_sorts stableAddressCompare_order) (driver_start _ none) sampleRounds_uniform.given
    (fun _ => id) sampleRounds_uniform.methods sampleRounds_uniform.kept sampleRounds_uniform.tasks
    true (by simp)
  refine ⟨out, ran, (count 1).mpr ⟨by decide, fun j below earlier here => ?_⟩⟩
  obtain rfl : j = 0 := by omega
  cases here
  rfl

theorem stress_change_points_shifted : ∃ out,
    stress (fun _ => .ptr 0) (sortBy stableAddressCompare) none sampleRounds = .ok out ∧
      ∃ es e', out[1]? = some es ∧ es[0]? = some (some e') ∧ e'.isChpt = true := by
  obtain ⟨out, ran, count, marks⟩ := stress_change_points (fun _ => .ptr 0)
    (sortBy stableAddressCompare) (sortBy_sorts stableAddressCompare_order) true none sampleRounds
    sampleRounds_uniform
  obtain ⟨out', ran', second⟩ := sample_second
  obtain rfl : out = out' := Except.ok.inj (ran.symm.trans ran')
  have last := List.getElem?_eq_getElem second
  obtain ⟨e', event, -, -, marked⟩ := marks 1 _ out[1] rfl last 0 _ _ rfl
  refine ⟨out, ran, out[1], e', last, event, marked.mpr (.inr ⟨rfl, rfl, rfl, .inr (.inl ?_)⟩)⟩
  exact ⟨0, by decide, _, rfl, rfl, 1, _, sample_reported, 20496, by decide, by decide⟩

theorem sample_mapped {start : Nat} (placed : 0 < start) (low : start < longMax)
    (calls : List HandlerCall) : Mapped (sampleLines start) (sampleRound start calls) :=
  ⟨sampleLines_space placed low, rfl, memoryMapParse_text _ (sampleLines_space placed low).formed⟩

theorem racy_instruction_stays_shifted : ∃ out,
    stress (fun _ => .ptr 0) (sortBy stableAddressCompare) none sampleRounds = .ok out ∧
      ∃ es e', out[1]? = some es ∧ es[0]? = some (some e') ∧ e'.isChpt = true := by
  obtain ⟨out, ran, stays⟩ := racy_instruction_stays (fun _ => .ptr 0)
    (sortBy stableAddressCompare) (sortBy_sorts stableAddressCompare_order) none sampleRounds
    sampleRounds_uniform (fun k => sampleLines (if k = 0 then 20480 else 36864)) (by
      intro k round here
      match k with
      | 0 =>
          cases here
          exact sample_mapped (by decide) (by decide) _
      | 1 =>
          cases here
          exact sample_mapped (by decide) (by decide) _)
  obtain ⟨out', ran', second⟩ := sample_second
  obtain rfl : out = out' := Except.ok.inj (ran.symm.trans ran')
  have last := List.getElem?_eq_getElem second
  obtain ⟨e', event, marked⟩ := stays 0 1 _ _ out[1] (by decide) rfl rfl last rfl [47, 97] 4112 1 _
    sample_reported ⟨20496, by decide, by decide, _, List.mem_cons_self, by decide, rfl, rfl⟩ 0 _ _ rfl
    ⟨by decide, _, List.mem_cons_self, by decide, rfl, rfl⟩ rfl rfl rfl
  exact ⟨out, ran, out[1], e', last, event, marked⟩

end Samples

end Lotto.Ichpt
