import Lotto.PollCounts
import Lotto.TimeoutFires

namespace Lotto.PollTimeouts

open Library.FaultRun Library.KeyMap PollSpecs PollCounts TimeoutFires

section Deadline

def nanoseconds (ts : Timespec) : Int := ts.tvSec * nsecInSec + ts.tvNsec

def Normal (ts : Timespec) : Prop := 0 ≤ ts.tvNsec ∧ ts.tvNsec < nsecInSec

variable {timeout : Int} {clock : Timespec}

theorem pollDeadline_positive (int : timeout < 2147483648) (positive : 0 < timeout)
    (normal : Normal clock) :
    Normal (pollDeadline timeout clock) ∧
      nanoseconds (pollDeadline timeout clock) = nanoseconds clock + timeout * nsecInMsec := by
  obtain ⟨nonneg, small⟩ := normal
  simp only [Normal, nanoseconds, pollDeadline, nsecInMsec, nsecInSec] at *
  have unwrapped : timeout * 1000000 % 18446744073709551616 = timeout * 1000000 := by omega
  rw [unwrapped]
  omega

theorem le_int32Max_iff {ts : Timespec} (normal : Normal ts) :
    ts ≤ int32Max ↔ nanoseconds ts ≤ 2147483647 * nsecInSec := by
  obtain ⟨nonneg, small⟩ := normal
  rw [← not_lt, Timespec.lt_iff]
  simp only [nanoseconds, int32Max, nsecInSec] at *
  omega

theorem lt_of_nanoseconds {a b : Timespec} (normal : Normal a) (normal' : Normal b)
    (less : nanoseconds a < nanoseconds b) : a < b := by
  obtain ⟨_, _⟩ := normal
  obtain ⟨_, _⟩ := normal'
  rw [Timespec.lt_iff]
  simp only [nanoseconds, nsecInSec] at *
  omega

end Deadline

section Waiting

variable {tid : TaskId} {args : PollArgs} {clock : Timespec} {st : PollState}

theorem clearEntry_fd (p : Pollfd) : (clearEntry p).fd = p.fd := by
  unfold clearEntry
  split <;> rfl

theorem watch_registers (tid : TaskId) (fds : Map PolledFd) (entries : List Pollfd) :
    ∃ fds', entries.foldlM (watch tid) fds = .ok fds' ∧
      ∀ key, key ∈ fds' ↔ key ∈ fds ∨ ∃ p ∈ entries, 0 ≤ p.fd.toInt ∧ key = fdKey p.fd := by
  induction entries generalizing fds with
  | nil => exact ⟨fds, rfl, by simp⟩
  | cons p entries ih =>
      by_cases own : 0 ≤ p.fd.toInt
      · obtain ⟨mid, item, watched, sets, -⟩ := watch_sets tid fds own
        obtain ⟨fds', rest, keys⟩ := ih mid
        refine ⟨fds', by rw [List.foldlM_cons, watched, ok_bind, rest], ?_⟩
        intro key
        have first : key ∈ mid ↔ key ∈ fds ∨ key = fdKey p.fd := by
          rw [← AList.lookup_isSome, sets.lookup, ← AList.lookup_isSome]
          by_cases here : key = fdKey p.fd
          · simp [here]
          · simp [here]
        rw [keys, first]
        simp [own, or_assoc]
      · have negative : p.fd < 0 := not_not.mp (not_neg_iff.not.mpr own)
        obtain ⟨fds', rest, keys⟩ := ih fds
        refine ⟨fds', by rw [List.foldlM_cons, watch, if_pos negative, ok_bind, rest], ?_⟩
        intro key
        rw [keys]
        simp [own]

def polled (args : PollArgs) : PollArgs := { args with fds := args.fds.map clearEntry }

structure Waits (tid : TaskId) (args : PollArgs) (timeouts : Map Timespec) (st st' : PollState) :
    Prop where
  timeouts : st'.timeouts = timeouts
  polls : st'.polls = st.polls.insert tid (polled args)
  fds : ∀ key, key ∈ st'.fds ↔
    key ∈ st.fds ∨ ∃ p ∈ args.fds, 0 ≤ p.fd.toInt ∧ key = fdKey p.fd

theorem pollWait_waits (named : tid ≠ noTask) (idle : st.polls.lookup tid = none)
    {timeouts : Map Timespec} (registered : pollTimeouts tid args.timeout clock st.timeouts =
      .ok timeouts) :
    ∃ st', pollWait tid args clock st = .ok st' ∧ Waits tid args timeouts st st' := by
  have name : (tid != noTask) = true := by
    simpa using named
  obtain ⟨fds, watched, keys⟩ := watch_registers tid st.fds (args.fds.map clearEntry)
  refine ⟨{ st with polls := st.polls.insert tid (polled args), fds, timeouts }, ?_, rfl, rfl, ?_⟩
  · simp [pollWait, name, idle, registered, watched, polled]
  · intro key
    rw [keys]
    simp [clearEntry_fd]

theorem pollWait_registers (args : PollArgs) (clock : Timespec) (named : tid ≠ noTask)
    (idle : st.polls.lookup tid = none) (other : ¬(args.timeout = 0 ∨ args.timeout = -1)) :
    ∃ st', pollWait tid args clock st = .ok st' ∧ ∀ x, st'.timeouts.lookup x =
      if x = tid then some (pollDeadline args.timeout clock) else st.timeouts.lookup x := by
  obtain ⟨timeouts, registered, lookups⟩ :=
    handlerTimeoutRegister_ok named (pollDeadline args.timeout clock) st.timeouts
  have ran : pollTimeouts tid args.timeout clock st.timeouts = .ok timeouts := by
    rw [pollTimeouts, if_neg other, registered]
  obtain ⟨st', waited, waits⟩ := pollWait_waits named idle ran
  refine ⟨st', waited, ?_⟩
  rw [waits.timeouts]
  exact lookups

theorem pollWait_unregistered (args : PollArgs) (clock : Timespec) (named : tid ≠ noTask)
    (idle : st.polls.lookup tid = none) (none : args.timeout = 0 ∨ args.timeout = -1) :
    ∃ st', pollWait tid args clock st = .ok st' ∧ Waits tid args st.timeouts st st' :=
  pollWait_waits named idle (by rw [pollTimeouts, if_pos none])

end Waiting

section Clock

/-- What happens to the timeout handler while a task waits: captures with a task set at a time, and
the deadlines of the handlers. -/
inductive ClockMove where
  | capture (tset : Tidset) (clock : Timespec)
  | register (id : TaskId) (deadline : Timespec)
  | deregister (id : TaskId)

def clockStep (st : TimeoutState) : ClockMove → Except Fault TimeoutState
  | .capture tset clock => timeoutHandle { st with tset, clock }
  | .register id deadline => do
      let timeouts ← handlerTimeoutRegister id deadline st.timeouts
      .ok { st with timeouts }
  | .deregister id => do
      let timeouts ← handlerTimeoutDeregister id st.timeouts
      .ok { st with timeouts }

def NotFor (tid : TaskId) (moves : List ClockMove) : Prop :=
  ∀ deadline, .register tid deadline ∉ moves

variable {tid : TaskId} {st st' : TimeoutState}

theorem fireAll_silent (ids : List TaskId) (st : TimeoutState) (absent : tid ∉ ids)
    (unregistered : st.timeouts.lookup tid = none) :
    (fireAll ids st).timeouts.lookup tid = none ∧
      (fireAll ids st).triggered.count tid = st.triggered.count tid := by
  rw [fireAll_lookup, if_neg absent, fireAll_triggered, List.count_append,
    List.count_eq_zero_of_not_mem absent, Nat.add_zero]
  exact ⟨unregistered, rfl⟩

theorem checkDeadlines_silent (st : TimeoutState) (unregistered : st.timeouts.lookup tid = none) :
    (checkDeadlines st).timeouts.lookup tid = none ∧
      (checkDeadlines st).triggered.count tid = st.triggered.count tid := by
  rw [checkDeadlines_eq]
  refine fireAll_silent (dueIds st) st ?_ unregistered
  rw [mem_dueIds]
  intro due
  obtain ⟨deadline, found, -⟩ := due
  rw [unregistered] at found
  cases found

theorem minSearch_key (items : List Item) (least : MinTimeout) :
    (items.foldl minStep least).key = least.key ∨
      (items.foldl minStep least).key ∈ items.map (·.1) := by
  induction items generalizing least with
  | nil => exact .inl rfl
  | cons it items ih =>
      rw [List.foldl_cons, List.map_cons]
      rcases ih (minStep least it) with same | later
      · rw [same]
        unfold minStep
        dsimp only
        split
        · exact .inl rfl
        · exact .inr List.mem_cons_self
      · exact .inr (List.mem_cons_of_mem _ later)

theorem timeLeap_silent (named : tid ≠ noTask) (unregistered : st.timeouts.lookup tid = none)
    (ran : timeLeap st = .ok st') :
    st'.timeouts.lookup tid = none ∧ st'.triggered.count tid = st.triggered.count tid := by
  unfold timeLeap at ran
  obtain ⟨-, -, ran⟩ := bind_eq_ok.mp ran
  obtain ⟨clock, -, ran⟩ := bind_eq_ok.mp ran
  have absent : tid ∉ st.timeouts.keys := by
    rw [← AList.mem_keys, ← AList.lookup_isSome, unregistered]
    simp
  have apart : tid ≠ (st.timeouts.entries.foldl minStep minStart).key := by
    intro same
    rcases minSearch_key st.timeouts.entries minStart with none | member
    · exact named (same.trans none)
    · exact absent (same ▸ member)
  dsimp only at ran
  split at ran
  · obtain rfl := Except.ok.inj ran
    exact checkDeadlines_silent { st with clock } unregistered
  · obtain rfl := Except.ok.inj ran
    exact fireAll_silent [_] { st with clock } (by simpa using apart) unregistered

theorem timeoutHandle_silent (ran : timeoutHandle st = .ok st') (named : tid ≠ noTask)
    (unregistered : st.timeouts.lookup tid = none) :
    st'.timeouts.lookup tid = none ∧ st'.triggered.count tid = st.triggered.count tid := by
  unfold timeoutHandle at ran
  have checked := checkDeadlines_silent st unregistered
  dsimp only at ran
  split at ran
  · obtain rfl := Except.ok.inj ran
    exact ⟨unregistered, rfl⟩
  split at ran
  · obtain rfl := Except.ok.inj ran
    exact checked
  · obtain ⟨gone, silent⟩ := timeLeap_silent named checked.1 ran
    exact ⟨gone, silent.trans checked.2⟩

theorem clockStep_silent (named : tid ≠ noTask) (unregistered : st.timeouts.lookup tid = none)
    {move : ClockMove} (others : ∀ deadline, move ≠ .register tid deadline)
    (ran : clockStep st move = .ok st') :
    st'.timeouts.lookup tid = none ∧ st'.triggered.count tid = st.triggered.count tid := by
  cases move with
  | capture tset clock =>
      have handled : timeoutHandle { st with tset, clock } = .ok st' := ran
      have silent := timeoutHandle_silent handled named unregistered
      exact silent
  | register id deadline =>
      have apart : tid ≠ id := by
        intro same
        exact others deadline (same ▸ rfl)
      obtain ⟨timeouts, registered, ran⟩ := bind_eq_ok.mp ran
      obtain rfl := Except.ok.inj ran
      have known : id ≠ noTask := by
        intro none
        simp [handlerTimeoutRegister, none] at registered
      obtain ⟨timeouts', again, lookups⟩ := handlerTimeoutRegister_ok known deadline st.timeouts
      obtain rfl := Except.ok.inj (registered.symm.trans again)
      exact ⟨by rw [lookups, if_neg apart, unregistered], rfl⟩
  | deregister id =>
      obtain ⟨timeouts, removed, ran⟩ := bind_eq_ok.mp ran
      obtain rfl := Except.ok.inj ran
      obtain ⟨-, -, rest⟩ := bind_eq_ok.mp removed
      obtain rfl := Except.ok.inj rest
      refine ⟨?_, rfl⟩
      by_cases same : tid = id
      · rw [same]
        exact AList.lookup_erase _ _
      · rw [AList.lookup_erase_ne same, unregistered]

theorem clockRun_silent (named : tid ≠ noTask) (moves : List ClockMove) (others : NotFor tid moves)
    (unregistered : st.timeouts.lookup tid = none) (ran : moves.foldlM clockStep st = .ok st') :
    st'.triggered.count tid = st.triggered.count tid := by
  induction moves generalizing st with
  | nil =>
      obtain rfl := Except.ok.inj ran
      rfl
  | cons move moves ih =>
      rw [List.foldlM_cons] at ran
      obtain ⟨mid, stepped, rest⟩ := bind_eq_ok.mp ran
      obtain ⟨gone, silent⟩ := clockStep_silent named unregistered
        (fun deadline same => others deadline (same ▸ List.mem_cons_self)) stepped
      rw [ih (fun deadline member => others deadline (List.mem_cons_of_mem move member)) gone rest,
        silent]

end Clock

section Release

variable {tid : TaskId} {args : PollArgs} {clock : Timespec} {st st' : PollState}

theorem cleanupEntry_releases (named : tid ≠ noTask) (zero : args.timeout = 0)
    (known : ∀ p ∈ args.fds, 0 ≤ p.fd.toInt ∧ fdKey p.fd ∈ st.fds) :
    ∃ last, cleanupEntry st ⟨tid, args⟩ = .ok last ∧ last.polls.lookup tid = none := by
  obtain ⟨fds, unwatched, -⟩ := unwatchAll tid st.fds args.fds known
  refine ⟨{ st with fds, timeouts := st.timeouts.erase tid, polls := st.polls.erase tid }, ?_,
    AList.lookup_erase _ _⟩
  simp [cleanupEntry, zero, cleanupPoll, unwatched, handlerTimeoutDeregister_ok named]

theorem unwatch_known (id : TaskId) (entries : List Pollfd) {fds fds' : Map PolledFd}
    (ran : entries.foldlM (unwatch id) fds = .ok fds') : ∀ p ∈ entries, fdKey p.fd ∈ fds := by
  induction entries generalizing fds with
  | nil => simp
  | cons p entries ih =>
      rw [List.foldlM_cons] at ran
      obtain ⟨mid, first, rest⟩ := bind_eq_ok.mp ran
      unfold unwatch at first
      obtain ⟨-, -, first⟩ := bind_eq_ok.mp first
      cases found : fds.lookup (fdKey p.fd) with
      | none =>
          rw [found] at first
          cases first
      | some item =>
          rw [found] at first
          obtain rfl := Except.ok.inj first
          intro q member
          rcases List.mem_cons.mp member with rfl | member
          · exact mem_of_lookup found
          · simpa [AList.mem_replace] using ih rest q member

theorem fdKey_negative {fd fd' : Int32} (negative : fd.toInt < 0) (nonneg : 0 ≤ fd'.toInt) :
    fdKey fd ≠ fdKey fd' := by
  intro same
  have value := fdKey_toNat nonneg
  have bound := fd'.toInt_lt
  have least := fd.le_toInt
  rw [← same, fdKey, UInt64.ofInt, UInt64.toNat_ofNat'] at value
  omega

theorem cleanupEntry_negative {p : Pollfd} (member : p ∈ args.fds) (negative : p.fd.toInt < 0)
    (zero : args.timeout = 0)
    (keys : ∀ key ∈ st.fds, ∃ q ∈ args.fds, 0 ≤ q.fd.toInt ∧ key = fdKey q.fd) :
    ¬∃ last, cleanupEntry st ⟨tid, polled args⟩ = .ok last := by
  intro released
  obtain ⟨last, ran⟩ := released
  have acts : ¬((polled args).ret = 0 ∧ 0 < (polled args).fds.length ∧
      (polled args).timeout ≠ 0) := fun waits => waits.2.2 zero
  rw [cleanupEntry, if_neg acts] at ran
  obtain ⟨mid, cleaned, -⟩ := bind_eq_ok.mp ran
  obtain ⟨fds, unwatched, -⟩ := bind_eq_ok.mp cleaned
  have known := unwatch_known tid _ unwatched (clearEntry p) (List.mem_map_of_mem member)
  rw [clearEntry_fd] at known
  obtain ⟨q, -, nonneg, same⟩ := keys _ known
  exact fdKey_negative negative nonneg same

def Lasting (holds : Option PollArgs → Prop) : Prop :=
  ∀ fd revents args, holds (some args) → holds (some (deliver fd revents args))

variable {holds : Option PollArgs → Prop}

theorem deliver_keeps (lasting : Lasting holds) {fd : Int32} {revents : BitVec 16}
    (tasks : List TaskId) {polls polls' : Map PollArgs} (here : holds (polls.lookup tid))
    (ran : tasks.foldlM (deliverTo fd revents) polls = .ok polls') :
    holds (polls'.lookup tid) := by
  induction tasks generalizing polls with
  | nil =>
      obtain rfl := Except.ok.inj ran
      exact here
  | cons x tasks ih =>
      rw [List.foldlM_cons] at ran
      obtain ⟨mid, first, rest⟩ := bind_eq_ok.mp ran
      obtain ⟨-, -, first⟩ := bind_eq_ok.mp first
      cases found : polls.lookup x with
      | none =>
          rw [found] at first
          cases first
      | some old =>
          rw [found] at first
          obtain rfl := Except.ok.inj first
          refine ih ?_ rest
          rw [lookup_replace (mem_of_lookup found)]
          by_cases same : tid = x
          · rw [if_pos same]
            rw [same, found] at here
            exact lasting fd revents old here
          · rwa [if_neg same]

theorem propagate_keeps (lasting : Lasting holds) {fds : Map PolledFd}
    (results : List (Int32 × BitVec 16)) {acc acc' : Map PollArgs × Int}
    (here : holds (acc.1.lookup tid)) (ran : results.foldlM (propagate fds) acc = .ok acc') :
    holds (acc'.1.lookup tid) := by
  induction results generalizing acc with
  | nil =>
      obtain rfl := Except.ok.inj ran
      exact here
  | cons result results ih =>
      rw [List.foldlM_cons] at ran
      obtain ⟨mid, first, rest⟩ := bind_eq_ok.mp ran
      refine ih ?_ rest
      unfold propagate at first
      split at first
      · obtain rfl := Except.ok.inj first
        exact here
      obtain ⟨-, -, first⟩ := bind_eq_ok.mp first
      split at first
      · cases first
      obtain ⟨polls, delivered, first⟩ := bind_eq_ok.mp first
      obtain rfl := Except.ok.inj first
      exact deliver_keeps lasting _ here delivered

theorem pollAtInterval_keeps (lasting : Lasting holds) {sysPoll : SysPoll}
    (ran : pollAtInterval sysPoll st = .ok st') (here : holds (st.polls.lookup tid)) :
    holds (st'.polls.lookup tid) ∧ st'.timeouts = st.timeouts := by
  unfold pollAtInterval pollFds at ran
  dsimp only at ran
  split at ran
  · split at ran
    · obtain rfl := Except.ok.inj ran
      exact ⟨here, rfl⟩
    split at ran
    · obtain rfl := Except.ok.inj ran
      exact ⟨here, rfl⟩
    obtain ⟨acc, propagated, ran⟩ := bind_eq_ok.mp ran
    obtain ⟨-, -, ran⟩ := bind_eq_ok.mp ran
    obtain rfl := Except.ok.inj ran
    exact ⟨propagate_keeps lasting _ here propagated, rfl⟩
  · obtain rfl := Except.ok.inj ran
    exact ⟨here, rfl⟩

def ZeroTimeout (entry : Option PollArgs) : Prop := ∀ args, entry = some args → args.timeout = 0

theorem zeroTimeout_lasting : Lasting ZeroTimeout := by
  rintro fd revents args zero _ ⟨⟩
  exact zero args rfl

theorem cleanupFds_keeps (ran : cleanupFds st = .ok st') :
    st'.polls = st.polls ∧ st'.timeouts = st.timeouts := by
  obtain ⟨fds, -, ran⟩ := bind_eq_ok.mp ran
  obtain rfl := Except.ok.inj ran
  exact ⟨rfl, rfl⟩

theorem cleanupRequested_keeps (ran : cleanupRequested st = .ok st') :
    st'.polls = st.polls ∧ st'.timeouts = st.timeouts := by
  unfold cleanupRequested at ran
  split at ran
  · obtain ⟨polls, timeouts⟩ := cleanupFds_keeps ran
    exact ⟨polls, timeouts⟩
  · obtain rfl := Except.ok.inj ran
    exact ⟨rfl, rfl⟩

theorem cleanupLoop_releases (its : List (Sigma fun _ : UInt64 => PollArgs))
    (zero : ∀ it ∈ its, it.1 = tid → it.2.timeout = 0)
    (listed : st.polls.lookup tid = none ∨ tid ∈ its.map Sigma.fst)
    (ran : its.foldlM cleanupEntry st = .ok st') : st'.polls.lookup tid = none := by
  induction its generalizing st with
  | nil =>
      obtain rfl := Except.ok.inj ran
      exact listed.resolve_right (by simp)
  | cons it its ih =>
      rw [List.foldlM_cons] at ran
      obtain ⟨mid, first, rest⟩ := bind_eq_ok.mp ran
      refine ih (fun it' member => zero it' (List.mem_cons_of_mem it member)) ?_ rest
      have own := zero it List.mem_cons_self
      unfold cleanupEntry at first
      split at first
      next waits =>
        obtain rfl := Except.ok.inj first
        rw [List.map_cons, List.mem_cons] at listed
        rcases listed with gone | same | later
        · exact .inl gone
        · exact absurd (own same.symm) waits.2.2
        · exact .inr later
      next acts =>
        obtain ⟨cleaned, ran', first⟩ := bind_eq_ok.mp first
        obtain ⟨timeouts, -, first⟩ := bind_eq_ok.mp first
        obtain ⟨fds, -, ran'⟩ := bind_eq_ok.mp ran'
        obtain rfl := Except.ok.inj ran'
        obtain rfl := Except.ok.inj first
        by_cases same : tid = it.1
        · left
          rw [same]
          exact AList.lookup_erase _ _
        · rw [List.map_cons, List.mem_cons] at listed
          rcases listed with gone | here | later
          · exact .inl ((AList.lookup_erase_ne same).trans gone)
          · exact absurd here same
          · exact .inr later

theorem helpWaiters_releases {sysPoll : SysPoll} (zero : ZeroTimeout (st.polls.lookup tid))
    (ran : helpWaiters sysPoll st = .ok st') : st'.polls.lookup tid = none := by
  unfold helpWaiters at ran
  obtain ⟨requested, cleaned, ran⟩ := bind_eq_ok.mp ran
  obtain ⟨asked, polledNow, ran⟩ := bind_eq_ok.mp ran
  obtain ⟨released, freed, ran⟩ := bind_eq_ok.mp ran
  have zero₁ : ZeroTimeout (requested.polls.lookup tid) := by
    rwa [(cleanupRequested_keeps cleaned).1]
  have zero₂ := (pollAtInterval_keeps zeroTimeout_lasting polledNow zero₁).1
  rw [(cleanupFds_keeps ran).1]
  refine cleanupLoop_releases asked.polls.entries ?_ ?_ freed
  · intro it member same
    exact zero₂ it.2 (same ▸ AList.mem_lookup_iff.mpr member)
  · cases found : asked.polls.lookup tid with
    | none => exact .inl rfl
    | some old =>
        right
        exact List.mem_map_of_mem (AList.mem_lookup_iff.mp found)

/-- The capture of a poll with the timeout 0 leaves the task neither waiting nor taken out of the
task set. -/
theorem pollHandle_releases {sysPoll : SysPoll} {e e' : Decision} (zero : args.timeout = 0)
    (ran : pollHandle { id := tid, event := .poll args } clock sysPoll e st = .ok (e', st')) :
    st'.polls.lookup tid = none ∧ (tid ∈ e.tset → tid ∈ e'.tset) := by
  unfold pollHandle at ran
  obtain ⟨waiting, waited, ran⟩ := bind_eq_ok.mp ran
  obtain ⟨helped, help, ran⟩ := bind_eq_ok.mp ran
  obtain ⟨filtered, filter, ran⟩ := bind_eq_ok.mp ran
  obtain ⟨rfl, rfl⟩ := Prod.mk.inj (Except.ok.inj ran)
  have zeroTimeout : ZeroTimeout (waiting.polls.lookup tid) := by
    have waited : pollWait tid args clock st = .ok waiting := waited
    unfold pollWait at waited
    obtain ⟨-, -, waited⟩ := bind_eq_ok.mp waited
    obtain ⟨-, -, waited⟩ := bind_eq_ok.mp waited
    obtain ⟨timeouts, -, waited⟩ := bind_eq_ok.mp waited
    obtain ⟨fds, -, waited⟩ := bind_eq_ok.mp waited
    obtain rfl := Except.ok.inj waited
    intro old found
    rw [AList.lookup_insert] at found
    obtain rfl := Option.some.inj found
    exact zero
  have gone := helpWaiters_releases zeroTimeout help
  refine ⟨gone, ?_⟩
  intro member
  unfold pollFilter at filter
  obtain ⟨-, -, filter⟩ := bind_eq_ok.mp filter
  obtain ⟨-, -, filter⟩ := bind_eq_ok.mp filter
  rw [gone] at filter
  obtain rfl := Except.ok.inj filter
  exact Tidset.mem_filter.mpr ⟨member, by rw [gone]; rfl⟩

end Release

section Expecting

variable {tid : TaskId} {args : PollArgs} {clock : Timespec} {st st' : PollState}
  {timeout : Int} {size : Nat}

def Expects (tid : TaskId) (deadline : Timespec) (st : PollState) : Prop :=
  (st.polls.lookup tid).isSome = true ∧ st.timeouts.lookup tid = some deadline

/-- The call of `_poll` in the capture that leaves `st` behind `_wait` finds events for the task. -/
def Answered (tid : TaskId) (sysPoll : SysPoll) (st : PollState) : Prop :=
  ∃ requested asked args, cleanupRequested st = .ok requested ∧
    pollAtInterval sysPoll { requested with helpCounter := requested.helpCounter + 1 } =
      .ok asked ∧
    asked.polls.lookup tid = some args ∧ args.ret ≠ 0

def WaitsFor (timeout : Int) (size : Nat) (entry : Option PollArgs) : Prop :=
  ∃ args, entry = some args ∧ args.timeout = timeout ∧ args.fds.length = size

theorem waitsFor_lasting : Lasting (WaitsFor timeout size) := by
  rintro fd revents args ⟨_, ⟨⟩, same, length⟩
  exact ⟨_, rfl, same, by simpa [deliver] using length⟩

/-- The loop of `_cleanup_polls` leaves alone a waiter without events, with fds and a timeout. -/
theorem cleanupLoop_keeps (its : List (Sigma fun _ : UInt64 => PollArgs))
    (waits : ∀ it ∈ its, it.1 = tid → it.2.ret = 0 ∧ 0 < it.2.fds.length ∧ it.2.timeout ≠ 0)
    (ran : its.foldlM cleanupEntry st = .ok st') :
    st'.polls.lookup tid = st.polls.lookup tid ∧
      st'.timeouts.lookup tid = st.timeouts.lookup tid := by
  induction its generalizing st with
  | nil =>
      obtain rfl := Except.ok.inj ran
      exact ⟨rfl, rfl⟩
  | cons it its ih =>
      rw [List.foldlM_cons] at ran
      obtain ⟨mid, first, rest⟩ := bind_eq_ok.mp ran
      obtain ⟨polls, timeouts⟩ :=
        ih (fun it' member => waits it' (List.mem_cons_of_mem it member)) rest
      unfold cleanupEntry at first
      split at first
      next =>
        obtain rfl := Except.ok.inj first
        exact ⟨polls, timeouts⟩
      next acts =>
        have apart : tid ≠ it.1 := fun same => acts (waits it List.mem_cons_self same.symm)
        obtain ⟨cleaned, ran', first⟩ := bind_eq_ok.mp first
        obtain ⟨left, removed, first⟩ := bind_eq_ok.mp first
        obtain ⟨fds, -, ran'⟩ := bind_eq_ok.mp ran'
        obtain ⟨-, -, removed⟩ := bind_eq_ok.mp removed
        obtain rfl := Except.ok.inj ran'
        obtain rfl := Except.ok.inj removed
        obtain rfl := Except.ok.inj first
        exact ⟨polls.trans (AList.lookup_erase_ne apart), timeouts.trans (AList.lookup_erase_ne apart)⟩

theorem helpWaiters_expects {sysPoll : SysPoll} {deadline : Timespec} (timed : timeout ≠ 0)
    (nonempty : 0 < size) (waits : WaitsFor timeout size (st.polls.lookup tid))
    (registered : st.timeouts.lookup tid = some deadline)
    (ran : helpWaiters sysPoll st = .ok st') : Expects tid deadline st' ∨ Answered tid sysPoll st := by
  unfold helpWaiters at ran
  obtain ⟨requested, cleaned, ran⟩ := bind_eq_ok.mp ran
  obtain ⟨asked, polledNow, ran⟩ := bind_eq_ok.mp ran
  obtain ⟨released, freed, ran⟩ := bind_eq_ok.mp ran
  obtain ⟨polls₁, timeouts₁⟩ := cleanupRequested_keeps cleaned
  have waits₁ : WaitsFor timeout size (requested.polls.lookup tid) := by rwa [polls₁]
  obtain ⟨⟨args, found, same, length⟩, timeouts₂⟩ :=
    pollAtInterval_keeps waitsFor_lasting polledNow waits₁
  by_cases quiet : args.ret = 0
  · left
    have stays : ∀ it ∈ asked.polls.entries, it.1 = tid →
        it.2.ret = 0 ∧ 0 < it.2.fds.length ∧ it.2.timeout ≠ 0 := by
      rintro ⟨key, it⟩ member rfl
      have own : asked.polls.lookup key = some it := AList.mem_lookup_iff.mpr member
      rw [found] at own
      cases own
      exact ⟨quiet, by rwa [length], by rwa [same]⟩
    obtain ⟨polls₃, timeouts₃⟩ := cleanupLoop_keeps asked.polls.entries stays freed
    obtain ⟨polls₄, timeouts₄⟩ := cleanupFds_keeps ran
    constructor
    · rw [polls₄, polls₃, found]
      rfl
    · rw [timeouts₄, timeouts₃, timeouts₂]
      dsimp only
      rw [timeouts₁, registered]
  · exact .inr ⟨requested, asked, args, cleaned, polledNow, found, quiet⟩

theorem pollTrigger_releases (named : tid ≠ noTask) (found : st.polls.lookup tid = some args)
    (known : ∀ p ∈ args.fds, 0 ≤ p.fd.toInt ∧ fdKey p.fd ∈ st.fds) :
    ∃ last, pollTrigger tid st = .ok last ∧ last.polls.lookup tid = none := by
  obtain ⟨fds, unwatched, -⟩ := unwatchAll tid st.fds args.fds known
  refine ⟨{ st with fds, polls := st.polls.erase tid }, ?_, AList.lookup_erase _ _⟩
  have name : (tid != noTask) = true := by simpa using named
  simp only [pollTrigger, name, check_true, ok_bind, found, cleanupPoll, unwatched]

theorem pollTrigger_negative {p : Pollfd} (member : p ∈ args.fds) (negative : p.fd.toInt < 0)
    (found : st.polls.lookup tid = some (polled args))
    (keys : ∀ key ∈ st.fds, ∃ q ∈ args.fds, 0 ≤ q.fd.toInt ∧ key = fdKey q.fd) :
    ¬∃ last, pollTrigger tid st = .ok last := by
  rintro ⟨last, ran⟩
  obtain ⟨-, -, ran⟩ := bind_eq_ok.mp ran
  rw [found] at ran
  obtain ⟨mid, cleaned, -⟩ := bind_eq_ok.mp ran
  obtain ⟨fds, unwatched, -⟩ := bind_eq_ok.mp cleaned
  have known := unwatch_known tid _ unwatched (clearEntry p) (List.mem_map_of_mem member)
  rw [clearEntry_fd] at known
  obtain ⟨q, -, nonneg, same⟩ := keys _ known
  exact fdKey_negative negative nonneg same

def noFdsWait (tid : TaskId) (args : PollArgs) (timeouts : Map Timespec) : PollState :=
  { pollStart with polls := pollStart.polls.insert tid (polled args), timeouts }

theorem pollWait_noFds (named : tid ≠ noTask) (none : args.fds = []) (clock : Timespec) :
    ∃ timeouts, pollWait tid args clock pollStart = .ok (noFdsWait tid args timeouts) := by
  obtain ⟨timeouts, registered⟩ : ∃ timeouts,
      pollTimeouts tid args.timeout clock pollStart.timeouts = .ok timeouts := by
    unfold pollTimeouts
    split
    · exact ⟨_, rfl⟩
    · obtain ⟨timeouts, registered, -⟩ :=
        handlerTimeoutRegister_ok named (pollDeadline args.timeout clock) pollStart.timeouts
      exact ⟨timeouts, registered⟩
  have name : (tid != noTask) = true := by simpa using named
  refine ⟨timeouts, ?_⟩
  rw [pollWait, name, check_true, ok_bind, show (pollStart.polls.lookup tid).isNone = true from rfl,
    check_true, ok_bind, registered, ok_bind, none]
  simp [noFdsWait, polled, none]

theorem noFds_entries (tid : TaskId) (args : PollArgs) (timeouts : Map Timespec) :
    (noFdsWait tid args timeouts).polls.entries = [⟨tid, polled args⟩] := rfl

theorem noFds_unanswered (quiet : args.ret = 0) (timeouts : Map Timespec) (sysPoll : SysPoll) :
    ¬Answered tid sysPoll (noFdsWait tid args timeouts) := by
  rintro ⟨requested, asked, args', cleaned, polledNow, found, loud⟩
  cases cleaned
  cases polledNow
  have own : (noFdsWait tid args timeouts).polls.lookup tid = some (polled args) :=
    AList.lookup_insert _
  have same : args' = polled args := Option.some.inj (found.symm.trans own)
  exact loud (same ▸ quiet)

def noFdsLeft (tid : TaskId) (args : PollArgs) (timeouts : Map Timespec) : PollState :=
  { noFdsWait tid args timeouts with
    helpCounter := 1
    timeouts := timeouts.erase tid
    polls := (noFdsWait tid args timeouts).polls.erase tid }

theorem helpWaiters_noFds (named : tid ≠ noTask) (none : args.fds = []) (timeouts : Map Timespec)
    (sysPoll : SysPoll) :
    helpWaiters sysPoll (noFdsWait tid args timeouts) = .ok (noFdsLeft tid args timeouts) := by
  have released : cleanupEntry { noFdsWait tid args timeouts with helpCounter := 1 }
      ⟨tid, polled args⟩ = .ok (noFdsLeft tid args timeouts) := by
    simp [cleanupEntry, polled, none, cleanupPoll, handlerTimeoutDeregister_ok named, noFdsWait,
      noFdsLeft]
  have loop : cleanupPolls { noFdsWait tid args timeouts with helpCounter := 1 } =
      .ok (noFdsLeft tid args timeouts) := by
    rw [cleanupPolls]
    dsimp only
    rw [noFds_entries, List.foldlM_cons, released, ok_bind]
    rfl
  have requested : cleanupRequested (noFdsWait tid args timeouts) =
      .ok (noFdsWait tid args timeouts) := rfl
  have asked : pollAtInterval sysPoll { noFdsWait tid args timeouts with
      helpCounter := (noFdsWait tid args timeouts).helpCounter + 1 } =
        .ok { noFdsWait tid args timeouts with helpCounter := 1 } := rfl
  rw [helpWaiters, requested, ok_bind, asked, ok_bind, loop, ok_bind]
  rfl

theorem pollHandle_noFds (named : tid ≠ noTask) (none : args.fds = []) (clock : Timespec)
    (sysPoll : SysPoll) : ∃ e e' last,
      pollHandle { id := tid, event := .poll args } clock sysPoll e pollStart = .ok (e', last) ∧
        last.polls.lookup tid = .none := by
  obtain ⟨timeouts, waited⟩ := pollWait_noFds named none clock
  have name : (tid != noTask) = true := by simpa using named
  have gone : (noFdsLeft tid args timeouts).polls.lookup tid = .none := AList.lookup_erase tid _
  let e := prepareDecision 1 .empty { status := .done, id := noTask }
  have filtered : ∃ e', pollFilter tid e (noFdsLeft tid args timeouts) = .ok e' := by
    rw [pollFilter, show (!e.tset.has noTask) = true from rfl, check_true, ok_bind]
    dsimp only
    rw [name, check_true, ok_bind, gone]
    exact ⟨_, rfl⟩
  obtain ⟨e', filtered⟩ := filtered
  refine ⟨e, e', _, ?_, gone⟩
  rw [pollHandle, pollRegisterWaiter]
  dsimp only
  rw [waited, ok_bind, helpWaiters_noFds named none, ok_bind, filtered, ok_bind]

end Expecting

section Timeouts

def CanPoll (tid : TaskId) (st : PollState) : Prop :=
  tid ≠ noTask ∧ st.polls.lookup tid = none

/-- What the timeout of a poll has to mean: negative, the clock never ends it; zero, it ends with its
own capture; positive, it waits, unless that capture finds events, and the clock ends it after so many
milliseconds. -/
structure KeepsTimeout (args : PollArgs) (clock : Timespec) : Prop where
  forever : args.timeout < 0 → ∀ tid st, CanPoll tid st → ∃ st',
    pollWait tid args clock st = .ok st' ∧ st'.timeouts = st.timeouts ∧
      (st.timeouts.lookup tid = none → ∀ (moves : List ClockMove) (ts ts' : TimeoutState),
        ts.timeouts = st'.timeouts → NotFor tid moves → moves.foldlM clockStep ts = .ok ts' →
          ts'.triggered.count tid = ts.triggered.count tid)
  atOnce : args.timeout = 0 → ∀ tid st, CanPoll tid st → ∃ st',
    pollWait tid args clock st = .ok st' ∧ st'.timeouts = st.timeouts ∧
      (∃ last, cleanupEntry st' ⟨tid, polled args⟩ = .ok last ∧ last.polls.lookup tid = none) ∧
      ∀ sysPoll e e' last,
        pollHandle { id := tid, event := .poll args } clock sysPoll e st = .ok (e', last) →
          last.polls.lookup tid = none ∧ (tid ∈ e.tset → tid ∈ e'.tset)
  deadline : 0 < args.timeout → ∀ tid st, CanPoll tid st → ∃ st' deadline,
    pollWait tid args clock st = .ok st' ∧
      (∀ x, st'.timeouts.lookup x = if x = tid then some deadline else st.timeouts.lookup x) ∧
      Normal deadline ∧
      nanoseconds deadline = nanoseconds clock + args.timeout * nsecInMsec ∧
      (∃ last, pollTrigger tid st' = .ok last ∧ last.polls.lookup tid = none) ∧
      (∀ sysPoll e e' last,
        pollHandle { id := tid, event := .poll args } clock sysPoll e st = .ok (e', last) →
          Expects tid deadline last ∧ tid ∉ e'.tset ∨ Answered tid sysPoll st') ∧
      ∀ ts : TimeoutState, noTask ∉ ts.timeouts → Starved ts → Earliest ts tid deadline →
        ∃ ts', timeoutHandle ts = .ok ts' ∧ ts'.clock = deadline ∧
          ts'.triggered.count tid = ts.triggered.count tid + 1 ∧ tid ∈ ts'.tset

variable {args : PollArgs} {clock : Timespec}

theorem minusOne_forever (minusOne : args.timeout = -1) (tid : TaskId) (st : PollState)
    (can : CanPoll tid st) : ∃ st', pollWait tid args clock st = .ok st' ∧
      st'.timeouts = st.timeouts ∧
      (st.timeouts.lookup tid = none → ∀ (moves : List ClockMove) (ts ts' : TimeoutState),
        ts.timeouts = st'.timeouts → NotFor tid moves → moves.foldlM clockStep ts = .ok ts' →
          ts'.triggered.count tid = ts.triggered.count tid) := by
  obtain ⟨st', waited, waits⟩ := pollWait_unregistered args clock can.1 can.2 (.inr minusOne)
  refine ⟨st', waited, waits.timeouts, ?_⟩
  intro unregistered moves ts ts' same others ran
  refine clockRun_silent can.1 moves others ?_ ran
  rw [same, waits.timeouts, unregistered]

theorem zero_atOnce (zero : args.timeout = 0) (nonneg : ∀ p ∈ args.fds, 0 ≤ p.fd.toInt)
    (tid : TaskId) (st : PollState) (can : CanPoll tid st) : ∃ st',
      pollWait tid args clock st = .ok st' ∧ st'.timeouts = st.timeouts ∧
      (∃ last, cleanupEntry st' ⟨tid, polled args⟩ = .ok last ∧ last.polls.lookup tid = none) ∧
      ∀ sysPoll e e' last,
        pollHandle { id := tid, event := .poll args } clock sysPoll e st = .ok (e', last) →
          last.polls.lookup tid = none ∧ (tid ∈ e.tset → tid ∈ e'.tset) := by
  obtain ⟨st', waited, waits⟩ := pollWait_unregistered args clock can.1 can.2 (.inl zero)
  refine ⟨st', waited, waits.timeouts, ?_, ?_⟩
  · refine cleanupEntry_releases can.1 zero ?_
    intro p member
    obtain ⟨q, inside, rfl⟩ := List.mem_map.mp member
    rw [clearEntry_fd]
    exact ⟨nonneg q inside, (waits.fds _).mpr (.inr ⟨q, inside, nonneg q inside, rfl⟩)⟩
  · intro sysPoll e e' last ran
    exact pollHandle_releases zero ran

/-- The capture of a poll with a positive timeout leaves the task waiting and out of the task set,
unless it finds events for it. -/
theorem pollHandle_expects {tid : TaskId} {st st' last : PollState} {deadline : Timespec}
    {sysPoll : SysPoll} {e e' : Decision} (timed : args.timeout ≠ 0) (nonempty : args.fds ≠ [])
    (waited : pollWait tid args clock st = .ok st')
    (waits : st'.polls = st.polls.insert tid (polled args))
    (registered : st'.timeouts.lookup tid = some deadline)
    (ran : pollHandle { id := tid, event := .poll args } clock sysPoll e st = .ok (e', last)) :
    Expects tid deadline last ∧ tid ∉ e'.tset ∨ Answered tid sysPoll st' := by
  obtain ⟨waiting, again, ran⟩ := bind_eq_ok.mp ran
  obtain rfl := Except.ok.inj (waited.symm.trans again)
  obtain ⟨helped, help, ran⟩ := bind_eq_ok.mp ran
  obtain ⟨filtered, filter, ran⟩ := bind_eq_ok.mp ran
  cases ran
  have entry : WaitsFor args.timeout args.fds.length (st'.polls.lookup tid) := by
    rw [waits, AList.lookup_insert]
    exact ⟨_, rfl, rfl, by simp [polled]⟩
  have size : 0 < args.fds.length := List.length_pos_iff.mpr nonempty
  refine (helpWaiters_expects timed size entry registered help).imp_left fun expects => ⟨expects, ?_⟩
  obtain ⟨-, -, filter⟩ := bind_eq_ok.mp filter
  obtain ⟨-, -, filter⟩ := bind_eq_ok.mp filter
  rw [expects.1, if_pos rfl] at filter
  obtain ⟨-, -, filter⟩ := bind_eq_ok.mp filter
  cases filter
  intro member
  obtain ⟨-, idle⟩ := Tidset.mem_filter.mp member
  rw [← Option.not_isSome, expects.1] at idle
  cases idle

theorem earliest_reached {tid : TaskId} {deadline : Timespec} (within : deadline ≤ int32Max)
    {ts : TimeoutState} (named : noTask ∉ ts.timeouts) (starved : Starved ts)
    (earliest : Earliest ts tid deadline) :
    ∃ ts', timeoutHandle ts = .ok ts' ∧ ts'.clock = deadline ∧
      ts'.triggered.count tid = ts.triggered.count tid + 1 ∧ tid ∈ ts'.tset := by
  obtain ⟨ts', ran, fires⟩ := timeLeap_fires named starved ⟨tid, deadline, earliest.1, within⟩
  have fired : Fired ts tid := .inr ⟨starved, deadline, earliest⟩
  obtain ⟨other, first⟩ := fires.leap starved
  refine ⟨ts', (handle_starved starved).trans ran, ?_, fires.once tid fired,
    (fires.available tid).mpr (.inr fired)⟩
  exact le_antisymm (first.2 tid deadline earliest.1) (earliest.2 other _ first.1)

def onlyWaiter (tid : TaskId) (deadline clock : Timespec) : TimeoutState :=
  { timeouts := AList.insert tid deadline ∅, clock, tset := .empty, triggered := [] }

theorem onlyWaiter_lookup {tid x : TaskId} {deadline clock : Timespec} {d : Timespec} :
    (onlyWaiter tid deadline clock).timeouts.lookup x = some d ↔ x = tid ∧ d = deadline := by
  rw [show (onlyWaiter tid deadline clock).timeouts = AList.insert tid deadline ∅ from rfl,
    lookup_insert_some]
  simp

theorem onlyWaiter_named {tid : TaskId} (named : tid ≠ noTask) (deadline clock : Timespec) :
    noTask ∉ (onlyWaiter tid deadline clock).timeouts := by
  intro member
  obtain ⟨d, found⟩ := Option.isSome_iff_exists.mp (AList.lookup_isSome.mpr member)
  exact named (onlyWaiter_lookup.mp found).1.symm

theorem onlyWaiter_starved (tid : TaskId) {deadline clock : Timespec} (ahead : clock < deadline) :
    Starved (onlyWaiter tid deadline clock) := by
  refine ⟨rfl, by simp [onlyWaiter], ?_⟩
  intro id due
  obtain ⟨d, found, early⟩ := due
  obtain ⟨-, rfl⟩ := onlyWaiter_lookup.mp found
  exact absurd early (not_le.mpr ahead)

theorem beyond_unreached {tid : TaskId} (named : tid ≠ noTask) {deadline clock : Timespec}
    (beyond : int32Max < deadline) (ahead : clock < deadline) :
    timeoutHandle (onlyWaiter tid deadline clock) = .error .timeoutNoTask := by
  rw [handle_starved (onlyWaiter_starved tid ahead)]
  refine timeLeap_fails (onlyWaiter_named named deadline clock) ?_
  intro id d found
  obtain ⟨-, rfl⟩ := onlyWaiter_lookup.mp found
  exact beyond

/-- The timeouts that the handlers keep: of the negative ones only -1, zero for an array without a
negative fd, and for such an array, if it is not empty, the positive ones that end within the seconds
that an `int32_t` counts. -/
structure Keepable (args : PollArgs) (clock : Timespec) : Prop where
  negative : args.timeout < 0 → args.timeout = -1
  zero : args.timeout = 0 → ∀ p ∈ args.fds, 0 ≤ p.fd.toInt
  positive : 0 < args.timeout → args.fds ≠ [] ∧ (∀ p ∈ args.fds, 0 ≤ p.fd.toInt) ∧
    nanoseconds clock + args.timeout * nsecInMsec ≤ 2147483647 * nsecInSec

theorem canPoll_start : CanPoll 1 pollStart := ⟨by decide, rfl⟩

theorem KeepsTimeout.minusOne (keeps : KeepsTimeout args clock) (negative : args.timeout < 0) :
    args.timeout = -1 := by
  by_contra other
  obtain ⟨st', waited, unchanged, -⟩ := keeps.forever negative 1 pollStart canPoll_start
  obtain ⟨st'', again, lookups⟩ :=
    pollWait_registers args clock canPoll_start.1 canPoll_start.2 (by omega)
  obtain rfl := Except.ok.inj (waited.symm.trans again)
  have registered := lookups 1
  rw [unchanged, if_pos rfl] at registered
  cases registered

theorem KeepsTimeout.nonneg_of_zero (keeps : KeepsTimeout args clock) (zero : args.timeout = 0) :
    ∀ p ∈ args.fds, 0 ≤ p.fd.toInt := by
  intro p member
  by_contra negative
  obtain ⟨st', waited, -, released, -⟩ := keeps.atOnce zero 1 pollStart canPoll_start
  obtain ⟨st'', again, waits⟩ :=
    pollWait_unregistered args clock canPoll_start.1 canPoll_start.2 (.inl zero)
  obtain rfl := Except.ok.inj (waited.symm.trans again)
  obtain ⟨last, ran, -⟩ := released
  refine cleanupEntry_negative member (not_le.mp negative) zero ?_ ⟨last, ran⟩
  intro key known
  exact ((waits.fds key).mp known).resolve_left (by simp [pollStart])

theorem KeepsTimeout.nonempty (keeps : KeepsTimeout args clock) (quiet : args.ret = 0)
    (positive : 0 < args.timeout) : args.fds ≠ [] := by
  intro none
  obtain ⟨st', deadline, waited, -, -, -, -, expects, -⟩ :=
    keeps.deadline positive 1 pollStart canPoll_start
  obtain ⟨timeouts, again⟩ := pollWait_noFds canPoll_start.1 none clock
  obtain rfl := Except.ok.inj (waited.symm.trans again)
  obtain ⟨e, e', gone, ran, left⟩ := pollHandle_noFds canPoll_start.1 none clock fun _ => (0, [])
  rcases expects _ e e' gone ran with ⟨⟨still, -⟩, -⟩ | answered
  · rw [left] at still
    cases still
  · exact noFds_unanswered quiet timeouts _ answered

theorem KeepsTimeout.nonneg_of_positive (keeps : KeepsTimeout args clock)
    (positive : 0 < args.timeout) : ∀ p ∈ args.fds, 0 ≤ p.fd.toInt := by
  intro p member
  by_contra negative
  obtain ⟨st', deadline, waited, -, -, -, ⟨last, freed, -⟩, -⟩ :=
    keeps.deadline positive 1 pollStart canPoll_start
  obtain ⟨timeouts, registered, -⟩ :=
    handlerTimeoutRegister_ok canPoll_start.1 (pollDeadline args.timeout clock) pollStart.timeouts
  obtain ⟨st'', again, waits⟩ := pollWait_waits canPoll_start.1 canPoll_start.2
    (show pollTimeouts 1 args.timeout clock pollStart.timeouts = .ok timeouts by
      rw [pollTimeouts, if_neg (by omega), registered])
  obtain rfl := Except.ok.inj (waited.symm.trans again)
  have found : st'.polls.lookup 1 = some (polled args) := by
    rw [waits.polls, AList.lookup_insert]
  refine pollTrigger_negative member (not_le.mp negative) found ?_ ⟨last, freed⟩
  intro key known
  exact ((waits.fds key).mp known).resolve_left (by simp [pollStart])

theorem KeepsTimeout.representable (keeps : KeepsTimeout args clock) (normal : Normal clock)
    (positive : 0 < args.timeout) :
    nanoseconds clock + args.timeout * nsecInMsec ≤ 2147483647 * nsecInSec := by
  obtain ⟨st', deadline, -, -, normal', sum, -, -, reached⟩ :=
    keeps.deadline positive 1 pollStart canPoll_start
  rw [← sum, ← le_int32Max_iff normal']
  by_contra late
  have ahead : clock < deadline := by
    apply lt_of_nanoseconds normal normal'
    simp only [nsecInMsec] at sum
    omega
  have earliest : Earliest (onlyWaiter 1 deadline clock) 1 deadline := by
    refine ⟨onlyWaiter_lookup.mpr ⟨rfl, rfl⟩, ?_⟩
    intro other later found
    rw [(onlyWaiter_lookup.mp found).2]
  obtain ⟨ts', ran, -⟩ := reached (onlyWaiter 1 deadline clock)
    (onlyWaiter_named (by decide) deadline clock) (onlyWaiter_starved 1 ahead) earliest
  rw [beyond_unreached (by decide) (not_le.mp late) ahead] at ran
  cases ran

theorem KeepsTimeout.keepable (keeps : KeepsTimeout args clock) (quiet : args.ret = 0)
    (normal : Normal clock) : Keepable args clock where
  negative := keeps.minusOne
  zero := keeps.nonneg_of_zero
  positive := fun positive => ⟨keeps.nonempty quiet positive, keeps.nonneg_of_positive positive,
    keeps.representable normal positive⟩

theorem Keepable.keeps (keepable : Keepable args clock) (int : args.timeout < 2147483648)
    (normal : Normal clock) : KeepsTimeout args clock := by
  refine ⟨?_, ?_, ?_⟩
  · intro negative tid st can
    exact minusOne_forever (keepable.negative negative) tid st can
  · intro zero tid st can
    exact zero_atOnce zero (keepable.zero zero) tid st can
  · intro positive tid st can
    obtain ⟨normal', sum⟩ := pollDeadline_positive int positive normal
    obtain ⟨nonempty, nonneg, bound⟩ := keepable.positive positive
    obtain ⟨timeouts, registered, lookups⟩ :=
      handlerTimeoutRegister_ok can.1 (pollDeadline args.timeout clock) st.timeouts
    obtain ⟨st', waited, waits⟩ := pollWait_waits can.1 can.2
      (show pollTimeouts tid args.timeout clock st.timeouts = .ok timeouts by
        rw [pollTimeouts, if_neg (by omega), registered])
    rw [← waits.timeouts] at lookups
    refine ⟨st', pollDeadline args.timeout clock, waited, lookups, normal', sum, ?_, ?_, ?_⟩
    · have found : st'.polls.lookup tid = some (polled args) := by
        rw [waits.polls, AList.lookup_insert]
      refine pollTrigger_releases can.1 found ?_
      intro p member
      obtain ⟨q, inside, rfl⟩ := List.mem_map.mp member
      rw [clearEntry_fd]
      exact ⟨nonneg q inside, (waits.fds _).mpr (.inr ⟨q, inside, nonneg q inside, rfl⟩)⟩
    · intro sysPoll e e' last ran
      have own := lookups tid
      rw [if_pos rfl] at own
      exact pollHandle_expects (by omega) nonempty waited waits.polls own ran
    · intro ts named starved earliest
      refine earliest_reached ?_ named starved earliest
      rw [le_int32Max_iff normal', sum]
      exact bound

/-- For every `int` and every normal time the handlers do with the timeout of a poll what it means
exactly where it is one that they can keep. -/
theorem poll_timeout_kept_iff (args : PollArgs) (clock : Timespec)
    (int : -2147483648 ≤ args.timeout ∧ args.timeout < 2147483648) (quiet : args.ret = 0)
    (normal : Normal clock) : KeepsTimeout args clock ↔ Keepable args clock :=
  ⟨fun keeps => keeps.keepable quiet normal, fun keepable => keepable.keeps int.2 normal⟩

def pollOfThree (timeout : Int) : PollArgs :=
  { fds := [{ fd := 3, events := 1, revents := 0 }], timeout, ret := 0 }

theorem quarter_second_kept :
    pollDeadline 250 { tvSec := 5, tvNsec := 999000000 } = { tvSec := 6, tvNsec := 249000000 } ∧
      KeepsTimeout (pollOfThree 250) { tvSec := 5, tvNsec := 999000000 } := by
  refine ⟨by decide, ?_⟩
  refine (poll_timeout_kept_iff (pollOfThree 250) _ (by decide) rfl ⟨by decide, by decide⟩).mpr ?_
  refine ⟨fun negative => absurd negative (by decide), fun zero => absurd zero (by decide), ?_⟩
  intro positive
  refine ⟨by simp [pollOfThree], ?_, by decide⟩
  intro p member
  rw [List.mem_singleton.mp member]
  decide

def pollOfNone (timeout : Int) : PollArgs := { fds := [], timeout, ret := 0 }

/-- The timeout -2 gets a deadline, a negative fd fails the assertion of a poll that does not wait, a
poll of no fds does not wait either, and a deadline after the last second of an `int32_t` is not
reached. -/
theorem poll_timeouts_not_kept :
    ¬KeepsTimeout (pollOfThree (-2)) { tvSec := 0, tvNsec := 0 } ∧
      ¬KeepsTimeout { pollOfThree 0 with fds := [{ fd := -2, events := 1, revents := 0 }] }
        { tvSec := 0, tvNsec := 0 } ∧
      ¬KeepsTimeout (pollOfNone 250) { tvSec := 0, tvNsec := 0 } ∧
      ¬KeepsTimeout (pollOfThree 1000) { tvSec := 2147483647, tvNsec := 0 } := by
  refine ⟨?_, ?_, ?_, ?_⟩
  · intro keeps
    have keepable := keeps.keepable rfl ⟨by decide, by decide⟩
    exact absurd (keepable.negative (by decide)) (by decide)
  · intro keeps
    have keepable := keeps.keepable rfl ⟨by decide, by decide⟩
    exact absurd (keepable.zero rfl _ List.mem_cons_self) (by decide)
  · intro keeps
    have keepable := keeps.keepable rfl ⟨by decide, by decide⟩
    exact (keepable.positive (by decide)).1 rfl
  · intro keeps
    have keepable := keeps.keepable rfl ⟨by decide, by decide⟩
    exact absurd (keepable.positive (by decide)).2.2 (by decide)

end Timeouts

end Lotto.PollTimeouts
