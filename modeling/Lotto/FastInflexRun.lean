import Lotto.FastInflex
import Lotto.InflexSearch
import Lotto.Library.Bisection
import Lotto.Library.FaultRun

namespace Lotto.Rinflex

open Library.FaultRun Library.Bisection

variable {O : Type} {exec : Nat → O → Executed × O} {args : InflexArgs} {wanted : Outcome}

abbrev Answers := List (Nat × Bool)

def answers (wanted : Outcome) (log : List (Nat × Executed)) : Answers :=
  log.filterMap fun (clk, ran) =>
    match postexec none ran with
    | .ok (some outcome) => some (clk, decide (outcome = wanted))
    | _ => none

def Asked (wanted : Outcome) (s : O × List (Nat × Executed)) (new : Answers)
    (s' : O × List (Nat × Executed)) : Prop :=
  answers wanted s'.2 = answers wanted s.2 ++ new

theorem answers_append (log more : List (Nat × Executed)) :
    answers wanted (log ++ more) = answers wanted log ++ answers wanted more :=
  List.filterMap_append

theorem Asked.refl (s : O × List (Nat × Executed)) : Asked wanted s [] s := by simp [Asked]

theorem Asked.trans {s s₁ s₂ : O × List (Nat × Executed)} {first second : Answers}
    (one : Asked wanted s first s₁) (two : Asked wanted s₁ second s₂) :
    Asked wanted s (first ++ second) s₂ := by
  unfold Asked at *
  rw [two, one, List.append_assoc]

theorem validRun_asked {clk patience : Nat} {s s' : O × List (Nat × Executed)} {outcome : Outcome}
    (ran : validRun (logged exec) clk patience s = .ok (outcome, s')) :
    Asked wanted s [(clk, decide (outcome = wanted))] s' := by
  induction patience generalizing s with
  | zero => cases ran
  | succ patience ih =>
      obtain ⟨found, judged, ran⟩ := bind_eq_ok.mp ran
      have judged' : postexec none (exec clk s.1).1 = .ok found := judged
      have one : answers wanted ((logged exec clk s).2).2 = answers wanted s.2 ++
          (found.map fun outcome => (clk, decide (outcome = wanted))).toList := by
        simp only [logged, answers_append]
        cases found <;> simp [answers, judged']
      cases found with
      | none =>
          have later := ih ran
          unfold Asked at *
          rw [later, one]
          simp
      | some outcome' =>
          cases ran
          exact one

theorem probe_asked {clk patience : Nat} {s s' : O × List (Nat × Executed)} {b : Bool}
    (ran : probe (logged exec) wanted patience clk s = .ok (b, s')) :
    Asked wanted s [(clk, b)] s' := by
  obtain ⟨⟨outcome, s₁⟩, valid, ran⟩ := bind_eq_ok.mp ran
  cases ran
  exact validRun_asked valid

theorem binarySearch_asked {patience l r c : Nat} {s s' : O × List (Nat × Executed)}
    (found : binarySearch (probe (logged exec) wanted patience) l r s = .ok (c, s')) :
    ∃ new, Narrows l r new c ∧ Asked wanted s new s' := by
  fun_induction binarySearch (probe (logged exec) wanted patience) l r s with
  | case1 l r s isOpen x ihLower ihUpper =>
      obtain ⟨⟨holds, s₁⟩, probed, found⟩ := bind_eq_ok.mp found
      have first := probe_asked probed
      cases holds with
      | true =>
          obtain ⟨new, narrows, asked⟩ := ihLower s₁ found
          exact ⟨_, .lower isOpen narrows, first.trans asked⟩
      | false =>
          obtain ⟨new, narrows, asked⟩ := ihUpper s₁ found
          exact ⟨_, .upper isOpen narrows, first.trans asked⟩
  | case2 l r s closed =>
      cases found
      exact ⟨[], .done (Nat.not_lt.mp closed), Asked.refl _⟩

/-- A search that came to `ip`, from below unless `ip` is the first clock. -/
def Reached (args : InflexArgs) (ip : Nat) (found : Answers) : Prop :=
  ∃ l, args.min ≤ l ∧ l ≤ ip ∧ l < args.lastClk ∧ (args.min < ip → l < ip) ∧
    Narrows l args.lastClk found ip

/-- What the answers of the searches so far say of `ip`: one search came to it, and as many others
as the confidence counts confirmed it. -/
structure Confirmed (args : InflexArgs) (ip confidence : Nat) (given : Answers) : Prop where
  above : args.min ≤ ip
  bound : confidence ≤ args.rounds + 1
  first : confidence = 0 → ip = args.min ∧ given = []
  searches : 0 < confidence → ip ≤ args.lastClk ∧
    ∃ (earlier found : Answers) (confirmed : List Answers), given = earlier ++ (found ++ confirmed.flatten) ∧
      Reached args ip found ∧ confirmed.length + 1 = confidence ∧ ∀ search ∈ confirmed, Narrows ip args.lastClk search ip

theorem Confirmed.step {ip c confidence lastIp : Nat} {given new : Answers}
    (inv : Confirmed args ip confidence given) (last : 0 < confidence → lastIp = ip)
    (more : confidence ≤ args.rounds) (isOpen : ip < args.lastClk)
    (narrows : Narrows ip args.lastClk new c) :
    Confirmed args c (if c = lastIp then confidence + 1 else 1) (given ++ new) := by
  have between := narrows.between (Nat.le_of_lt isOpen)
  have above := inv.above
  refine ⟨by omega, by split_ifs <;> omega, fun none => by split_ifs at none, ?_⟩
  intro positive
  refine ⟨between.2, ?_⟩
  by_cases fresh : 0 < confidence ∧ c = lastIp
  · obtain ⟨counted, same⟩ := fresh
    have same : c = ip := same.trans (last counted)
    subst same
    obtain ⟨_, earlier, found, confirmed, split, reached, count, agree⟩ := inv.searches counted
    refine ⟨earlier, found, confirmed ++ [new], ?_, reached, ?_, ?_⟩
    · simp [split]
    · rw [if_pos (last counted).symm]
      simp [count]
    · intro search member
      rcases List.mem_append.mp member with old | new'
      · exact agree search old
      · rw [List.mem_singleton.mp new']
        exact narrows
  · have one : (if c = lastIp then confidence + 1 else 1) = 1 := by
      split_ifs with same
      · omega
      · rfl
    refine ⟨given, new, [], by simp, ⟨ip, above, between.1, isOpen, ?_, narrows⟩, by simp [one], by simp⟩
    intro higher
    by_cases counted : 0 < confidence
    · have moved : c ≠ ip := fun same => fresh ⟨counted, same.trans (last counted).symm⟩
      omega
    · have begun := (inv.first (by omega)).1
      omega

theorem fastLoop_confirmed {patience fuel ip lastIp confidence ip' : Nat}
    {s s' : O × List (Nat × Executed)} (inv : Confirmed args ip confidence (answers wanted s.2))
    (last : 0 < confidence → lastIp = ip)
    (ran : fastLoop (logged exec) args wanted patience fuel ip lastIp confidence s = .ok (ip', s')) :
    ∃ confidence', Confirmed args ip' confidence' (answers wanted s'.2) ∧
      (args.rounds < confidence' ∨ args.lastClk ≤ ip') := by
  induction fuel generalizing ip lastIp confidence s with
  | zero => cases ran
  | succ fuel ih =>
      rw [fastLoop] at ran
      by_cases goesOn : confidence ≤ args.rounds ∧ ip < args.lastClk
      · rw [if_pos goesOn] at ran
        obtain ⟨⟨c, s₁⟩, searched, ran⟩ := bind_eq_ok.mp ran
        obtain ⟨new, narrows, asked⟩ := binarySearch_asked searched
        have next := inv.step last goesOn.1 goesOn.2 narrows
        rw [← asked] at next
        dsimp only at ran
        by_cases same : c = lastIp
        · rw [if_pos same] at ran next
          exact ih next (fun _ => same.symm) ran
        · rw [if_neg same] at ran next
          exact ih next (fun _ => rfl) ran
      · rw [if_neg goesOn] at ran
        cases ran
        exact ⟨confidence, inv, by omega⟩

/-- The evidence for the clock that a fast search returns: an execution replayed to it had the
outcome in each of `rounds + 1` searches in a row, the first of which also saw one without it right
before the clock. The other searches asked for no earlier clock and saw no other outcome. -/
structure Witnessed (args : InflexArgs) (wanted : Outcome) (log : List (Nat × Executed)) (ip : Nat) :
    Prop where
  above : args.min ≤ ip
  ended : args.lastClk ≤ ip → ip = max args.min args.lastClk ∧
    (args.min < args.lastClk → (args.lastClk - 1, false) ∈ answers wanted log)
  inside : ip < args.lastClk → ∃ (earlier found : Answers) (confirmed : List Answers),
    answers wanted log = earlier ++ (found ++ confirmed.flatten) ∧ confirmed.length = args.rounds ∧
      (ip, true) ∈ found ∧ (args.min < ip → (ip - 1, false) ∈ found) ∧
      ∀ search ∈ confirmed, (ip, true) ∈ search ∧ ∀ answer ∈ search, ip ≤ answer.1 ∧ answer.2 = true

theorem Confirmed.witnessed {ip confidence : Nat} {log : List (Nat × Executed)}
    (inv : Confirmed args ip confidence (answers wanted log))
    (done : args.rounds < confidence ∨ args.lastClk ≤ ip) : Witnessed args wanted log ip where
  above := inv.above
  ended := by
    intro last
    by_cases counted : 0 < confidence
    · obtain ⟨upper, earlier, found, confirmed, split, ⟨l, low, _, isOpen, rises, narrows⟩, _⟩ :=
        inv.searches counted
      have same : ip = args.lastClk := Nat.le_antisymm upper last
      refine ⟨by omega, ?_⟩
      intro wide
      have missed := narrows.miss (by omega) (rises (by omega))
      rw [split, ← same]
      simp [missed]
    · have begun := inv.first (by omega)
      refine ⟨by omega, fun wide => by omega⟩
  inside := by
    intro below
    have counted : args.rounds < confidence := by omega
    have bound := inv.bound
    obtain ⟨_, earlier, found, confirmed, split, ⟨l, low, ordered, isOpen, rises, narrows⟩, count,
      agree⟩ := inv.searches (by omega)
    refine ⟨earlier, found, confirmed, split, by omega, narrows.hit below, ?_, ?_⟩
    · intro higher
      exact narrows.miss (by omega) (rises higher)
    · intro search member
      have confirms := agree search member
      refine ⟨confirms.hit below, ?_⟩
      rintro ⟨x, b⟩ inside
      have range := confirms.range inside
      exact ⟨range.1, (confirms.threshold (by omega) inside).mpr range.1⟩

theorem fastLoop_witnessed {patience fuel ip : Nat} {o o' : O} {log : List (Nat × Executed)}
    (ran : fastLoop (logged exec) args wanted patience fuel args.min 0 0 (o, []) =
      .ok (ip, (o', log))) : Witnessed args wanted log ip := by
  have begins : Confirmed args args.min 0 (answers wanted []) :=
    ⟨Nat.le_refl _, Nat.zero_le _, fun _ => ⟨rfl, rfl⟩, fun none => by omega⟩
  obtain ⟨confidence, inv, done⟩ := fastLoop_confirmed begins (by omega) ran
  exact inv.witnessed done

/-- Every request for an execution gives a valid one, after some discarded ones. -/
def Responsive (exec : Nat → O → Executed × O) : Prop :=
  ∀ clk o, ∃ patience outcome o', validRun exec clk patience o = .ok (outcome, o')

theorem validRun_patient {clk patience more : Nat} {o : O} {result : Outcome × O}
    (patient : patience ≤ more) (ran : validRun exec clk patience o = .ok result) :
    validRun exec clk more o = .ok result := by
  induction patience generalizing o more with
  | zero => cases ran
  | succ patience ih =>
      obtain ⟨more, rfl⟩ := Nat.exists_eq_add_of_le' patient
      obtain ⟨found, judged, ran⟩ := bind_eq_ok.mp ran
      rw [← Nat.add_assoc, validRun, judged, ok_bind]
      cases found with
      | none => exact ih (by omega) ran
      | some outcome => exact ran

theorem validRun_logged {clk patience : Nat} {o o' : O} {outcome : Outcome}
    (ran : validRun exec clk patience o = .ok (outcome, o')) (log : List (Nat × Executed)) :
    ∃ log', validRun (logged exec) clk patience (o, log) = .ok (outcome, (o', log')) := by
  induction patience generalizing o log with
  | zero => cases ran
  | succ patience ih =>
      obtain ⟨found, judged, ran⟩ := bind_eq_ok.mp ran
      cases found with
      | none =>
          obtain ⟨log', later⟩ := ih ran (log ++ [(clk, (exec clk o).1)])
          refine ⟨log', ?_⟩
          simpa [validRun, logged, judged] using later
      | some outcome' =>
          cases ran
          exact ⟨log ++ [(clk, (exec clk o).1)], by simp [validRun, logged, judged]⟩

theorem probe_patient {clk patience more : Nat} {o : O} {result : Bool × O}
    (patient : patience ≤ more) (ran : probe exec wanted patience clk o = .ok result) :
    probe exec wanted more clk o = .ok result := by
  obtain ⟨answer, valid, ran⟩ := bind_eq_ok.mp ran
  rw [probe, validRun_patient patient valid, ok_bind]
  exact ran

theorem probe_ends (wanted : Outcome) (responsive : Responsive exec) (clk : Nat)
    (s : O × List (Nat × Executed)) :
    ∃ patience b s', probe (logged exec) wanted patience clk s = .ok (b, s') := by
  obtain ⟨patience, outcome, o', valid⟩ := responsive clk s.1
  obtain ⟨log', valid⟩ := validRun_logged valid s.2
  refine ⟨patience, decide (outcome = wanted), (o', log'), ?_⟩
  simp only [probe, valid, ok_bind]

section Refined

variable {σ : Type} {ask ask' : Nat → σ → Except SearchError (Bool × σ)}

/-- A search that got all its answers gets them also from a predicate that gives at least those. -/
theorem binarySearch_refined (refined : ∀ x s result, ask x s = .ok result → ask' x s = .ok result)
    {l r : Nat} {s : σ} {result : Nat × σ} (found : binarySearch ask l r s = .ok result) :
    binarySearch ask' l r s = .ok result := by
  fun_induction binarySearch ask l r s with
  | case1 l r s isOpen x ihLower ihUpper =>
      obtain ⟨⟨holds, s₁⟩, answered, found⟩ := bind_eq_ok.mp found
      have answered' : ask' (l + (r - l) / 2) s = .ok (holds, s₁) := refined _ _ _ answered
      rw [binarySearch, if_pos isOpen]
      dsimp only at found ⊢
      rw [answered', ok_bind]
      cases holds with
      | true => exact ihLower s₁ found
      | false => exact ihUpper s₁ found
  | case2 l r s closed =>
      rw [binarySearch, if_neg closed]
      exact found

theorem fastLoop_refined {patience more : Nat}
    (refined : ∀ clk o result, probe exec wanted patience clk o = .ok result →
      probe exec wanted more clk o = .ok result)
    {fuel ip lastIp confidence : Nat} {o : O} {result : Nat × O}
    (ran : fastLoop exec args wanted patience fuel ip lastIp confidence o = .ok result) :
    fastLoop exec args wanted more fuel ip lastIp confidence o = .ok result := by
  induction fuel generalizing ip lastIp confidence o with
  | zero => cases ran
  | succ fuel ih =>
      rw [fastLoop] at ran ⊢
      split_ifs at ran ⊢ with goesOn
      · obtain ⟨⟨c, o₁⟩, searched, ran⟩ := bind_eq_ok.mp ran
        rw [binarySearch_refined refined searched, ok_bind]
        dsimp only at ran ⊢
        split_ifs at ran ⊢
        · exact ih ran
        · exact ih ran
      · exact ran

end Refined

theorem binarySearch_patient {patience more l r : Nat} {o : O} {result : Nat × O}
    (patient : patience ≤ more)
    (found : binarySearch (probe exec wanted patience) l r o = .ok result) :
    binarySearch (probe exec wanted more) l r o = .ok result :=
  binarySearch_refined (fun _ _ _ answered => probe_patient patient answered) found

theorem fastLoop_patient {patience more fuel ip lastIp confidence : Nat} {o : O} {result : Nat × O}
    (patient : patience ≤ more)
    (ran : fastLoop exec args wanted patience fuel ip lastIp confidence o = .ok result) :
    fastLoop exec args wanted more fuel ip lastIp confidence o = .ok result :=
  fastLoop_refined (fun _ _ _ answered => probe_patient patient answered) ran

theorem binarySearch_ends (wanted : Outcome) (responsive : Responsive exec) (l r : Nat)
    (s : O × List (Nat × Executed)) :
    ∃ patience c s', binarySearch (probe (logged exec) wanted patience) l r s = .ok (c, s') := by
  induction width : r - l using Nat.strong_induction_on generalizing l r s with
  | h width ih =>
      by_cases isOpen : l < r
      · obtain ⟨patience, b, s₁, probed⟩ := probe_ends wanted responsive (l + (r - l) / 2) s
        have half : ∃ patience' c s',
            (if b = true then binarySearch (probe (logged exec) wanted patience') l (l + (r - l) / 2) s₁
              else binarySearch (probe (logged exec) wanted patience') (l + (r - l) / 2 + 1) r s₁) =
              .ok (c, s') := by
          cases b with
          | true => exact ih _ (by omega) l (l + (r - l) / 2) s₁ rfl
          | false => exact ih _ (by omega) (l + (r - l) / 2 + 1) r s₁ rfl
        obtain ⟨patience', c, s', rest⟩ := half
        refine ⟨max patience patience', c, s', ?_⟩
        rw [binarySearch, if_pos isOpen]
        dsimp only
        rw [probe_patient (Nat.le_max_left patience patience') probed, ok_bind]
        cases b with
        | true => exact binarySearch_patient (Nat.le_max_right _ _) rest
        | false => exact binarySearch_patient (Nat.le_max_right _ _) rest
      · exact ⟨0, r, s, by rw [binarySearch, if_neg isOpen]⟩

def remaining (args : InflexArgs) (ip confidence : Nat) : Nat :=
  (args.lastClk - ip) * (args.rounds + 1) + (args.rounds + 1 - confidence)

theorem remaining_step {ip c confidence lastIp : Nat} (last : 0 < confidence → lastIp = ip)
    (more : confidence ≤ args.rounds) (isOpen : ip < args.lastClk) (up : ip ≤ c) :
    remaining args c (if c = lastIp then confidence + 1 else 1) < remaining args ip confidence := by
  have positive : 0 < args.lastClk - ip := by omega
  by_cases same : c = ip
  · subst same
    unfold remaining
    by_cases counted : 0 < confidence
    · rw [if_pos (last counted).symm]
      omega
    · have one : (if c = lastIp then confidence + 1 else 1) = 1 := by split_ifs <;> omega
      rw [one]
      omega
  · have fewer : (args.lastClk - c) * (args.rounds + 1) + (args.rounds + 1) ≤
        (args.lastClk - ip) * (args.rounds + 1) := by
      rw [← Nat.succ_mul]
      exact Nat.mul_le_mul_right _ (by omega)
    unfold remaining
    split_ifs <;> omega

structure Search (args : InflexArgs) (search : Answers) : Prop where
  narrows : ∃ l c, args.min ≤ l ∧ Narrows l args.lastClk search c
  short : search.length ≤ (args.lastClk - args.min).size

theorem search_of_narrows {l c : Nat} {search : Answers} (low : args.min ≤ l)
    (narrows : Narrows l args.lastClk search c) : Search args search where
  narrows := ⟨l, c, low, narrows⟩
  short := Nat.le_trans narrows.length_le (Nat.size_le_size (by omega))

/-- With enough patience the run ends, and its valid executions are those of so many searches. -/
def EndsIn (args : InflexArgs) (wanted : Outcome) (bound : Nat) (s : O × List (Nat × Executed))
    (run : Nat → Except SearchError (Nat × (O × List (Nat × Executed)))) : Prop :=
  ∃ patience c s', run patience = .ok (c, s') ∧
    ∃ searches : List Answers, Asked wanted s searches.flatten s' ∧ searches.length ≤ bound ∧
      ∀ search ∈ searches, Search args search

theorem EndsIn.mono {bound more : Nat} {s : O × List (Nat × Executed)}
    {run : Nat → Except SearchError (Nat × (O × List (Nat × Executed)))}
    (ends : EndsIn args wanted bound s run) (le : bound ≤ more) : EndsIn args wanted more s run := by
  obtain ⟨patience, c, s', ran, searches, asked, count, each⟩ := ends
  exact ⟨patience, c, s', ran, searches, asked, count.trans le, each⟩

theorem fastLoop_ends (wanted : Outcome) (responsive : Responsive exec)
    {fuel ip confidence : Nat} (lastIp : Nat) (low : args.min ≤ ip) (last : 0 < confidence → lastIp = ip)
    (enough : remaining args ip confidence < fuel) (s : O × List (Nat × Executed)) :
    EndsIn args wanted (remaining args ip confidence) s fun patience =>
      fastLoop (logged exec) args wanted patience fuel ip lastIp confidence s := by
  induction fuel generalizing ip lastIp confidence s with
  | zero => omega
  | succ fuel ih =>
      by_cases goesOn : confidence ≤ args.rounds ∧ ip < args.lastClk
      · obtain ⟨patience, c, s₁, searched⟩ := binarySearch_ends wanted responsive ip args.lastClk s
        obtain ⟨new, narrows, asked⟩ := binarySearch_asked searched
        have between := narrows.between (Nat.le_of_lt goesOn.2)
        have fewer := remaining_step last goesOn.1 goesOn.2 between.1
        have rest : EndsIn args wanted (remaining args ip confidence - 1) s₁ fun patience =>
            if c = lastIp then
              fastLoop (logged exec) args wanted patience fuel c lastIp (confidence + 1) s₁
            else fastLoop (logged exec) args wanted patience fuel c c 1 s₁ := by
          by_cases same : c = lastIp
          · simp only [if_pos same] at fewer ⊢
            exact (ih lastIp (by omega) (fun _ => same.symm) (by omega) s₁).mono (by omega)
          · simp only [if_neg same] at fewer ⊢
            exact (ih c (by omega) (fun _ => rfl) (by omega) s₁).mono (by omega)
        obtain ⟨patience', c', s', ran, searches, asked', count, each⟩ := rest
        refine ⟨max patience patience', c', s', ?_, new :: searches, asked.trans asked', ?_, ?_⟩
        · dsimp only at ran ⊢
          rw [fastLoop, if_pos goesOn, binarySearch_patient (Nat.le_max_left _ _) searched, ok_bind]
          dsimp only
          split_ifs at ran ⊢
          · exact fastLoop_patient (Nat.le_max_right _ _) ran
          · exact fastLoop_patient (Nat.le_max_right _ _) ran
        · rw [List.length_cons]
          omega
        · exact List.forall_mem_cons.mpr ⟨search_of_narrows low narrows, each⟩
      · exact ⟨0, ip, s, by dsimp only; rw [fastLoop, if_neg goesOn], [], Asked.refl s, Nat.zero_le _,
          by simp⟩

def searchBound (args : InflexArgs) : Nat :=
  (args.lastClk - args.min + 1) * (args.rounds + 1)

/-- The valid executions of a log are those of so many binary searches, each of which makes no more
of them than the width of its interval has binary digits. -/
def InSearches (args : InflexArgs) (wanted : Outcome) (log : List (Nat × Executed)) : Prop :=
  ∃ searches : List Answers, answers wanted log = searches.flatten ∧
    searches.length ≤ searchBound args ∧ ∀ search ∈ searches, Search args search

theorem fastLoop_returns (wanted : Outcome) {fuel : Nat} (responsive : Responsive exec)
    (enough : searchBound args < fuel) (o : O) :
    ∃ patience ip o' log,
      fastLoop (logged exec) args wanted patience fuel args.min 0 0 (o, []) = .ok (ip, (o', log)) ∧
        InSearches args wanted log := by
  have bound : remaining args args.min 0 = searchBound args := by
    simp only [remaining, searchBound, Nat.succ_mul, Nat.sub_zero]
  have enough : remaining args args.min 0 < fuel := by omega
  obtain ⟨patience, ip, ⟨o', log⟩, ran, searches, asked, count, each⟩ := fastLoop_ends wanted
    responsive 0 (Nat.le_refl args.min) (fun none => absurd none (Nat.lt_irrefl 0)) enough
    ((o, []) : O × List (Nat × Executed))
  exact ⟨patience, ip, o', log, ran, searches, asked, by omega, each⟩

/-- A program that fails from clock 3 on, and by chance before; some executions are discarded. -/
def sampleExec (clk : Nat) (draw : Nat) : Executed × Nat :=
  ({ exitcode := if 3 ≤ clk ∨ draw % 4 = 1 then 1 else 0
     id := 1
     reason := if draw % 5 = 2 then .ignore else .success
     kind := .recordExit
     size := 0
     constraints := 0
     discards := false }, draw + 1)

theorem sampleExec_responsive : Responsive sampleExec := by
  intro clk draw
  refine ⟨2, ?_⟩
  by_cases discarded : draw % 5 = 2
  · have kept : (draw + 1) % 5 ≠ 2 := by omega
    simp [validRun, postexec, sampleExec, discarded, kept, Reason.isRuntime, Reason.isAbort,
      Executed.shouldDiscard]
  · simp [validRun, postexec, sampleExec, discarded, Reason.isRuntime, Reason.isAbort,
      Executed.shouldDiscard]

def sampleArgs : InflexArgs := ⟨0, 6, 2⟩

/-- The result of `run_fast` and of `run_inverse_fast` is witnessed by the executions that they
made, whatever the program does. -/
theorem fast_searches_witnessed (exec : Nat → O → Executed × O) (args : InflexArgs)
    (patience fuel ip : Nat) (o o' : O) (log : List (Nat × Executed)) :
    (runFast (logged exec) args patience fuel (o, []) = .ok (ip, (o', log)) →
        Witnessed args .fail log ip) ∧
      (runInverseFast (logged exec) args patience fuel (o, []) = .ok (ip, (o', log)) →
        Witnessed args .success log ip) :=
  ⟨fastLoop_witnessed, fastLoop_witnessed⟩

theorem fast_searches_witnessed_by_chance :
    ∃ patience ip draw log,
      runFast (logged sampleExec) sampleArgs patience 22 (0, []) = .ok (ip, (draw, log)) ∧
        Witnessed sampleArgs .fail log ip := by
  have enough : searchBound sampleArgs < 22 := by decide
  obtain ⟨patience, ip, draw, log, ran, _⟩ := fastLoop_returns .fail sampleExec_responsive enough 0
  exact ⟨patience, ip, draw, log, ran,
    (fast_searches_witnessed sampleExec sampleArgs patience 22 ip 0 draw log).1 ran⟩

/-- If a valid execution is never out of reach, both fast searches return, and the number of binary
searches that they need, and of valid executions in each, has a bound. -/
theorem fast_searches_end (exec : Nat → O → Executed × O) (args : InflexArgs) (fuel : Nat)
    (responsive : Responsive exec) (enough : searchBound args < fuel) (o : O) :
    (∃ patience ip o' log, runFast (logged exec) args patience fuel (o, []) = .ok (ip, (o', log)) ∧
        InSearches args .fail log) ∧
      ∃ patience ip o' log,
        runInverseFast (logged exec) args patience fuel (o, []) = .ok (ip, (o', log)) ∧
          InSearches args .success log :=
  ⟨fastLoop_returns .fail responsive enough o, fastLoop_returns .success responsive enough o⟩

theorem fast_searches_end_by_chance :
    ∃ patience ip draw log,
      runFast (logged sampleExec) sampleArgs patience 22 (0, []) = .ok (ip, (draw, log)) ∧
        InSearches sampleArgs .fail log :=
  (fast_searches_end sampleExec sampleArgs 22 sampleExec_responsive (by decide) 0).1

section Deterministic

variable {σ : Type} {pred : Nat → Bool}

theorem binarySearch_pure {ask : Nat → σ → Except SearchError (Bool × σ)}
    (answered : ∀ x s, ∃ s', ask x s = .ok (pred x, s')) (l r : Nat) (s : σ) :
    ∃ s', binarySearch ask l r s = .ok (Inflex.binarySearch pred l r, s') := by
  fun_induction Inflex.binarySearch pred l r generalizing s with
  | case1 l r isOpen x holds ih =>
      obtain ⟨s₁, asked⟩ := answered x s
      obtain ⟨s', found⟩ := ih s₁
      refine ⟨s', ?_⟩
      rw [binarySearch, if_pos isOpen]
      simp only [x] at asked holds found
      simp only [asked, ok_bind, holds, if_true]
      exact found
  | case2 l r isOpen x fails ih =>
      obtain ⟨s₁, asked⟩ := answered x s
      obtain ⟨s', found⟩ := ih s₁
      refine ⟨s', ?_⟩
      rw [binarySearch, if_pos isOpen]
      simp only [x] at asked fails found
      simp only [asked, ok_bind, fails]
      exact found
  | case3 l r closed =>
      refine ⟨s, ?_⟩
      rw [binarySearch, if_neg closed]

theorem binarySearch_narrows (pred : Nat → Bool) (l r : Nat) :
    ∃ new, Narrows l r new (Inflex.binarySearch pred l r) ∧ ∀ x b, (x, b) ∈ new → b = pred x := by
  fun_induction Inflex.binarySearch pred l r with
  | case1 l r isOpen x holds ih =>
      obtain ⟨new, narrows, agree⟩ := ih
      refine ⟨(x, true) :: new, .lower isOpen narrows, ?_⟩
      intro y b member
      rcases List.mem_cons.mp member with same | member
      · cases same
        exact holds.symm
      · exact agree y b member
  | case2 l r isOpen x fails ih =>
      obtain ⟨new, narrows, agree⟩ := ih
      refine ⟨(x, false) :: new, .upper isOpen narrows, ?_⟩
      intro y b member
      rcases List.mem_cons.mp member with same | member
      · cases same
        simpa using fails
      · exact agree y b member
  | case3 l r closed => exact ⟨[], .done (Nat.not_lt.mp closed), by simp⟩

theorem binarySearch_again (mono : Inflex.Monotone pred) {l r : Nat} (ordered : l ≤ r) :
    Inflex.binarySearch pred (Inflex.binarySearch pred l r) r = Inflex.binarySearch pred l r := by
  obtain ⟨new, narrows, agree⟩ := binarySearch_narrows pred l r
  have inside := narrows.between ordered
  generalize Inflex.binarySearch pred l r = c at narrows inside ⊢
  obtain ⟨new', narrows', agree'⟩ := binarySearch_narrows pred c r
  have inside' := narrows'.between inside.2
  have monotone : ∀ x y, x ≤ y → pred x = true → pred y = true := mono
  have first := narrows.smallest ordered monotone fun x b member => by rw [agree x b member]
  have second := narrows'.smallest inside.2 monotone fun x b member => by rw [agree' x b member]
  by_contra moved
  exact second.2 c (Nat.le_refl c) (by omega) (first.1 (by omega))

/-- Every execution is valid, and the clock decides its outcome. -/
def Decided (exec : Nat → O → Executed × O) (pred : Nat → Bool) : Prop :=
  ∀ clk o, postexec none (exec clk o).1 = .ok (some (if pred clk then .fail else .success))

theorem Decided.validRun {patience : Nat} (decided : Decided exec pred) (patient : 0 < patience)
    (clk : Nat) (o : O) :
    validRun exec clk patience o =
      .ok (if pred clk then .fail else .success, (exec clk o).2) := by
  obtain ⟨n, rfl⟩ := Nat.exists_eq_succ_of_ne_zero (Nat.ne_of_gt patient)
  rw [Rinflex.validRun, decided clk o]
  rfl

theorem Decided.probe {patience : Nat} (decided : Decided exec pred) (patient : 0 < patience)
    (clk : Nat) (o : O) :
    probe exec .fail patience clk o = .ok (pred clk, (exec clk o).2) := by
  rw [Rinflex.probe, decided.validRun patient]
  cases holds : pred clk <;> simp

theorem Decided.probe_any {tries patience : Nat} (decided : Decided exec pred)
    (patient : 0 < patience) (clk : Nat) (o : O) (result : Bool × O)
    (ran : Rinflex.probe exec .fail tries clk o = .ok result) :
    Rinflex.probe exec .fail patience clk o = .ok result := by
  have same := probe_patient (Nat.le_max_left tries 1) ran
  rw [decided.probe (by omega)] at same
  rw [decided.probe patient, same]

theorem Decided.forever {patience : Nat} (decided : Decided exec pred) (patient : 0 < patience)
    (some : 0 < args.rounds) (clk : Nat) (o : O) :
    ∃ o', forever exec args .fail patience clk o = .ok (pred clk, o') := by
  have all : ∀ rounds o, pred clk = true →
      ∃ o', always (Rinflex.probe exec .fail patience clk) rounds o = .ok (true, o') := by
    intro rounds o holds
    induction rounds generalizing o with
    | zero => exact ⟨o, rfl⟩
    | succ rounds ih =>
        obtain ⟨o', rest⟩ := ih (exec clk o).2
        refine ⟨o', ?_⟩
        simp only [always, decided.probe patient, holds, ok_bind, if_true]
        exact rest
  unfold Rinflex.forever
  cases holds : pred clk with
  | true => exact all args.rounds o holds
  | false =>
      obtain ⟨n, more⟩ := Nat.exists_eq_succ_of_ne_zero (Nat.ne_of_gt some)
      refine ⟨(exec clk o).2, ?_⟩
      simp [more, always, decided.probe patient, holds]

theorem Decided.logged (decided : Decided exec pred) : Decided (logged exec) pred :=
  fun clk s => decided clk s.1

theorem fastLoop_pure {patience fuel ip lastIp confidence c : Nat} {o o' : O}
    (decided : Decided exec pred) (patient : 0 < patience) (mono : Inflex.Monotone pred)
    (ordered : args.min ≤ args.lastClk)
    (now : ip = Inflex.binarySearch pred args.min args.lastClk ∨ confidence = 0 ∧ ip = args.min)
    (ran : fastLoop exec args .fail patience fuel ip lastIp confidence o = .ok (c, o')) :
    c = Inflex.binarySearch pred args.min args.lastClk := by
  induction fuel generalizing ip lastIp confidence o with
  | zero => cases ran
  | succ fuel ih =>
      rw [fastLoop] at ran
      by_cases goesOn : confidence ≤ args.rounds ∧ ip < args.lastClk
      · obtain ⟨s₁, found⟩ := binarySearch_pure (fun x s => ⟨_, decided.probe patient x s⟩) ip
          args.lastClk o
        have same : Inflex.binarySearch pred ip args.lastClk =
            Inflex.binarySearch pred args.min args.lastClk := by
          rcases now with rfl | ⟨_, rfl⟩
          · exact binarySearch_again mono ordered
          · rfl
        rw [if_pos goesOn, found, ok_bind, same] at ran
        dsimp only at ran
        split_ifs at ran
        · exact ih (Or.inl rfl) ran
        · exact ih (Or.inl rfl) ran
      · rw [if_neg goesOn] at ran
        cases ran
        rcases now with same | ⟨zero, rfl⟩
        · exact same
        · have closed : ¬args.min < args.lastClk := fun isOpen => goesOn ⟨by omega, isOpen⟩
          rw [Inflex.binarySearch, if_neg closed]
          omega

/-- Where the clock alone decides the outcome, and a failure stays one at every later clock, the
fast search, the slow one and the one of the inflex command agree. -/
theorem fast_search_agrees (exec : Nat → O → Executed × O) (pred : Nat → Bool)
    (decided : Decided exec pred) (mono : Inflex.Monotone pred) (args : InflexArgs)
    (ordered : args.min ≤ args.lastClk) (some : 0 < args.rounds) (patience fuel : Nat)
    (patient : 0 < patience) (enough : searchBound args < fuel) (o : O) :
    (∃ s, runFast (logged exec) args patience fuel (o, []) =
        .ok (Inflex.binarySearch pred args.min args.lastClk, s)) ∧
      ∃ o', runSlow exec args patience o =
        .ok (Inflex.binarySearch pred args.min args.lastClk, o') := by
  refine ⟨?_, ?_⟩
  · have responsive : Responsive exec :=
      fun clk o => ⟨1, _, _, decided.validRun Nat.one_pos clk o⟩
    obtain ⟨tries, ip, o', log, found, _⟩ := fastLoop_returns .fail responsive enough o
    have ran := fastLoop_refined (decided.logged.probe_any patient) found
    refine ⟨(o', log), ?_⟩
    rw [← fastLoop_pure decided.logged patient mono ordered (Or.inr ⟨rfl, rfl⟩) ran]
    exact ran
  · exact binarySearch_pure (fun x s => decided.forever patient some x s) args.min args.lastClk o

def sampleDecided (clk : Nat) (_ : Unit) : Executed × Unit :=
  ({ exitcode := if Inflex.failsFromThree clk then 1 else 0
     id := 1
     reason := .success
     kind := .recordExit
     size := 0
     constraints := 0
     discards := false }, ())

theorem fast_search_agrees_from_three :
    (∃ s, runFast (logged sampleDecided) sampleArgs 1 22 ((), []) =
        .ok (Inflex.binarySearch Inflex.failsFromThree 0 6, s)) ∧
      ∃ o', runSlow sampleDecided sampleArgs 1 () =
        .ok (Inflex.binarySearch Inflex.failsFromThree 0 6, o') := by
  have decided : Decided sampleDecided Inflex.failsFromThree := by
    intro clk _
    cases fails : Inflex.failsFromThree clk <;>
      simp [postexec, sampleDecided, fails, Reason.isRuntime, Reason.isAbort, Executed.shouldDiscard]
  exact fast_search_agrees sampleDecided Inflex.failsFromThree decided Inflex.failsFromThree_monotone
    sampleArgs (by decide) (by decide) 1 22 (by decide) (by decide) ()

end Deterministic

end Lotto.Rinflex
