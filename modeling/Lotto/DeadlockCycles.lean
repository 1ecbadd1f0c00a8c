import Lotto.Library.WaitGraph
import Lotto.DeadlockBags

namespace Lotto.DeadlockCycles

open Relation
open Library.FaultRun Library.KeyMap Library.SwapList Library.WaitGraph DeadlockBags

/-- Recursive mutexes: the task that holds each of them, how often, and the mutex that each task
waits for. -/
structure Locks where
  holder : UInt64 → Option TaskId
  depth : UInt64 → Nat
  waits : TaskId → Option UInt64

def Locks.next (locks : Locks) (x : TaskId) : Option TaskId := (locks.waits x).bind locks.holder

def Locks.Has (locks : Locks) (r : UInt64) (x : TaskId) : Prop :=
  locks.holder r = some x ∨ locks.waits x = some r

structure Locks.Valid (locks : Locks) : Prop where
  held : ∀ r h, locks.holder r = some h → 0 < locks.depth r ∧ h ≠ noTask
  waited : ∀ x r, locks.waits x = some r → x ≠ noTask ∧ ∃ h, locks.holder r = some h ∧ h ≠ x

/-- The bags hold each holder as often as it has acquired, and each waiter once. -/
structure Mirrors (locks : Locks) (resources : Map Rsrc) : Prop where
  valid : locks.Valid
  entries : ∀ r x, (bagOf resources r).count x =
    (if locks.holder r = some x then locks.depth r else 0) +
      (if locks.waits x = some r then 1 else 0)

/-- The acquire of `key` by `tid` closes a cycle of tasks each of which waits for a resource that
the next one holds. -/
def Closes (locks : Locks) (tid : TaskId) (key : UInt64) : Prop :=
  ∃ h, locks.holder key = some h ∧ h ≠ tid ∧ ReflTransGen (Edge locks.next) h tid

/-- The holder of the resource waits, directly or not, for `tid`, or is it. -/
def Leads (locks : Locks) (tid : TaskId) (r : UInt64) : Prop :=
  ∃ h, locks.holder r = some h ∧ ReflTransGen (Edge locks.next) h tid

variable {locks : Locks} {resources out : Map Rsrc} {tid : TaskId} {key : UInt64}

theorem Mirrors.has (mirrors : Mirrors locks resources) (r : UInt64) (x : TaskId) :
    x ∈ bagOf resources r ↔ locks.Has r x := by
  rw [← List.count_pos_iff, mirrors.entries, Locks.Has]
  by_cases held : locks.holder r = some x
  · have positive := (mirrors.valid.held r x held).1
    simp only [held, if_true, true_or, iff_true]
    omega
  · by_cases waits : locks.waits x = some r
    · simp [waits]
    · simp [held, waits]

theorem Locks.Valid.named (valid : locks.Valid) {r : UInt64} {x : TaskId} (has : locks.Has r x) :
    x ≠ noTask := by
  rcases has with held | waits
  · exact (valid.held r x held).2
  · exact (valid.waited x r waits).1

theorem next_of_waits {x h : TaskId} {r : UInt64} (waits : locks.waits x = some r)
    (held : locks.holder r = some h) : locks.next x = some h := by
  rw [Locks.next, waits, Option.bind_some, held]

theorem Leads.through (valid : locks.Valid) (running : locks.waits tid = none) {x : TaskId}
    {r r' : UInt64} (here : locks.Has r x) (there : locks.Has r' x) (leads : Leads locks tid r') :
    Leads locks tid r := by
  obtain ⟨h', held', path⟩ := leads
  rcases there with holds' | waits'
  · rw [holds'] at held'
    obtain rfl := Option.some.inj held'
    rcases here with holds | waits
    · exact ⟨x, holds, path⟩
    · -- the only way from a waiting task leads through the holder it waits for
      obtain ⟨-, h, held, -⟩ := valid.waited x r waits
      have away : x ≠ tid := by
        intro same
        rw [same, running] at waits
        cases waits
      obtain ⟨b, step, rest⟩ := (reaches_iff away).mp path
      rw [next_of_waits waits held] at step
      obtain rfl := Option.some.inj step
      exact ⟨h, held, rest⟩
  · rcases here with holds | waits
    · exact ⟨x, holds, path.head (next_of_waits waits' held')⟩
    · rw [waits'] at waits
      obtain rfl := Option.some.inj waits
      exact ⟨h', held', path⟩

def Within (locks : Locks) (resources : Map Rsrc) : Prop :=
  ∀ r x, x ∈ bagOf resources r → locks.Has r x

theorem Within.same (within : Within locks resources) (same : SameBags resources out) :
    Within locks out :=
  fun r x member => within r x ((same.bags r).mem_iff.mp member)

def taken (resources : Map Rsrc) (key : UInt64) (it : Rsrc) (cur : TaskId) : Map Rsrc :=
  resources.replace key { it with tasks := swapErase cur it.tasks }

theorem bagOf_taken {it : Rsrc} (found : resources.lookup key = some it) (cur : TaskId)
    (r : UInt64) : (bagOf (taken resources key it cur) r).Perm
      (if r = key then (bagOf resources r).erase cur else bagOf resources r) := by
  rw [taken, bagOf_replace (mem_of_lookup found)]
  by_cases same : r = key
  · subst same
    rw [if_pos rfl, if_pos rfl, bagOf_some found]
    exact swapErase_perm cur it.tasks
  · rw [if_neg same, if_neg same]

theorem Within.taken {it : Rsrc} (within : Within locks resources)
    (found : resources.lookup key = some it) (cur : TaskId) :
    Within locks (taken resources key it cur) := by
  intro r x member
  rw [(bagOf_taken found cur r).mem_iff] at member
  by_cases same : r = key
  · rw [if_pos same] at member
    exact within r x (List.mem_of_mem_erase member)
  · rw [if_neg same] at member
    exact within r x member

section Sound

/-- A search that succeeds has taken the task out of a bag from which the recursive call
succeeded. -/
theorem searchResources_true {bound : Nat}
    {iter : UInt64 → Map Rsrc → Except Fault (Bool × Map Rsrc)} (keeps : ∀ key, Keeps bound (iter key))
    (cur : TaskId) (keys : List UInt64) (resources : Map Rsrc) (small : bagEntries resources ≤ bound)
    (hit : searchResources iter cur keys resources = .ok (true, out)) :
    ∃ key before it after, SameBags resources before ∧ before.lookup key = some it ∧
      cur ∈ it.tasks ∧ iter key (taken before key it cur) = .ok (true, after) := by
  induction keys generalizing resources with
  | nil => cases hit
  | cons key keys ih =>
      rw [searchResources] at hit
      cases found : resources.lookup key with
      | none =>
          rw [found] at hit
          exact ih resources small hit
      | some it =>
          by_cases inside : cur ∈ it.tasks
          · have fewer := bagEntries_taken found inside
            obtain ⟨res, after, ran, same⟩ := keeps key (taken resources key it cur) (by
              rw [taken]
              omega)
            obtain ⟨it', there, back⟩ := putBack found inside same
            cases res with
            | true => exact ⟨key, resources, it, after, SameBags.refl _, found, inside, ran⟩
            | false =>
                rw [taken] at ran
                simp only [found, if_pos inside, ran, ok_bind, there] at hit
                obtain ⟨key, before, rest⟩ := ih _ (by rw [back.entries]; exact small) hit
                obtain ⟨it, after, same, rest⟩ := rest
                exact ⟨key, before, it, after, back.trans same, rest⟩
          · simp only [found, if_neg inside] at hit
            exact ih resources small hit

theorem searchTasks_true (bound : Nat)
    {search : TaskId → Map Rsrc → Except Fault (Bool × Map Rsrc)}
    (keeps : ∀ cur, Keeps (bound + 1) (search cur)) (tid : TaskId) (key : UInt64) (places : List Nat)
    (resources : Map Rsrc) (small : bagEntries resources ≤ bound)
    (hit : searchTasks search tid key places resources = .ok (true, out)) :
    ∃ before after idx, SameBags resources before ∧
      search ((bagOf before key).getD idx noTask) before = .ok (true, after) := by
  induction places generalizing resources with
  | nil => cases hit
  | cons idx places ih =>
      rw [searchTasks] at hit
      dsimp only at hit
      split at hit
      · exact ih resources small hit
      · obtain ⟨res, after, ran, same⟩ :=
          keeps ((bagOf resources key).getD idx noTask) resources (Nat.lt_succ_of_le small)
        cases res with
        | true => exact ⟨resources, after, idx, SameBags.refl _, ran⟩
        | false =>
            rw [bagOf] at ran
            rw [ran] at hit
            obtain ⟨before, last, idx, again, found⟩ :=
              ih after (by rw [same.entries]; exact small) hit
            exact ⟨before, last, idx, same.trans again, found⟩

/-- The loops of one level of the search, for a recursive call that only succeeds for `tid` or on a
resource that leads to it. -/
theorem loops_lead (valid : locks.Valid) (running : locks.waits tid = none) (bound : Nat)
    {iter : TaskId → UInt64 → Map Rsrc → Except Fault (Bool × Map Rsrc)}
    (keeps : ∀ cur key, Keeps bound (iter cur key))
    (leads : ∀ cur key resources out, bagEntries resources < bound → Within locks resources →
      iter cur key resources = .ok (true, out) → cur = tid ∨ Leads locks tid key)
    (c : TaskId) (places : List Nat) (small : bagEntries resources ≤ bound)
    (within : Within locks resources)
    (hit : searchTasks (fun cur resources =>
      searchResources (iter cur) cur resources.keys resources) c key places resources =
        .ok (true, out)) :
    Leads locks tid key := by
  have kept : ∀ cur, Keeps (bound + 1) fun resources =>
      searchResources (iter cur) cur resources.keys resources := fun cur resources few =>
    searchResources_same (keeps cur) cur resources.keys resources (Nat.le_of_lt_succ few)
  obtain ⟨before, after, idx, same, hit⟩ := searchTasks_true bound kept c key places _ small hit
  have few : bagEntries before ≤ bound := by
    rw [same.entries]
    exact small
  generalize chosen : (bagOf before key).getD idx noTask = cur at hit
  obtain ⟨other, middle, it, last, again, found, inside, hit⟩ :=
    searchResources_true (keeps cur) cur _ before few hit
  have inMiddle : Within locks middle := (within.same same).same again
  have there : locks.Has other cur := by
    apply inMiddle
    rw [bagOf_some found]
    exact inside
  have here : locks.Has key cur := by
    -- past the end of the bag the search would be for no task
    apply within.same same
    rw [List.getD_eq_getElem?_getD] at chosen
    cases place : (bagOf before key)[idx]? with
    | none =>
        rw [place] at chosen
        exact absurd chosen.symm (valid.named there)
    | some x =>
        rw [place] at chosen
        rw [← chosen]
        exact List.mem_of_getElem? place
  have fewer := bagEntries_taken found inside
  rw [again.entries] at fewer
  have result := leads cur other _ last (by rw [taken]; omega) (inMiddle.taken found cur) hit
  rcases result with own | leads
  · rw [own] at here
    rcases here with holds | waits
    · exact ⟨tid, holds, ReflTransGen.refl⟩
    · rw [running] at waits
      cases waits
  · exact leads.through valid running here there

theorem checkDeadlockIter_leads (valid : locks.Valid) (named : tid ≠ noTask)
    (running : locks.waits tid = none) (fuel : Nat) (c : TaskId) (key : UInt64)
    (resources out : Map Rsrc) (small : bagEntries resources < fuel) (within : Within locks resources)
    (hit : checkDeadlockIter fuel c key tid resources = .ok (true, out)) :
    c = tid ∨ Leads locks tid key := by
  induction fuel generalizing c key resources out with
  | zero => omega
  | succ fuel ih =>
      simp only [checkDeadlockIter, if_neg named] at hit
      split at hit
      · cases hit
      split at hit
      next same => exact Or.inl same.symm
      next =>
        cases found : resources.lookup key with
        | none =>
            rw [found] at hit
            cases hit
        | some rsrc =>
            rw [found] at hit
            dsimp only at hit
            split at hit
            · cases hit
            apply Or.inr
            apply loops_lead valid running fuel _ ih c _ (Nat.le_of_lt_succ small) within hit
            intro cur other
            exact checkDeadlockIter_same fuel cur other tid

end Sound

section Complete

theorem searchResources_hits {bound : Nat}
    {iter : UInt64 → Map Rsrc → Except Fault (Bool × Map Rsrc)} (keeps : ∀ key, Keeps bound (iter key))
    (cur : TaskId) (keys : List UInt64) (resources : Map Rsrc) (small : bagEntries resources ≤ bound)
    {target : UInt64} (listed : target ∈ keys) (present : cur ∈ bagOf resources target)
    (hits : ∀ before it, SameBags resources before → before.lookup target = some it →
      cur ∈ it.tasks → ∃ out, iter target (taken before target it cur) = .ok (true, out)) :
    ∃ out, searchResources iter cur keys resources = .ok (true, out) := by
  induction keys generalizing resources with
  | nil => cases listed
  | cons key keys ih =>
      rw [searchResources]
      cases found : resources.lookup key with
      | none =>
          apply ih resources small _ present hits
          apply (List.mem_cons.mp listed).resolve_left
          intro same
          rw [same, bagOf, found] at present
          cases present
      | some it =>
          by_cases inside : cur ∈ it.tasks
          · have fewer := bagEntries_taken found inside
            obtain ⟨res, after, ran, same⟩ := keeps key (taken resources key it cur) (by
              rw [taken]
              omega)
            obtain ⟨it', there, back⟩ := putBack found inside same
            rw [taken] at ran
            simp only [if_pos inside, ran, ok_bind, there]
            cases res with
            | true => exact ⟨_, rfl⟩
            | false =>
                apply ih _ (by rw [back.entries]; exact small)
                · apply (List.mem_cons.mp listed).resolve_left
                  rintro rfl
                  obtain ⟨out, hit⟩ := hits resources it (SameBags.refl _) found inside
                  rw [taken, ran] at hit
                  cases hit
                · exact (back.bags target).mem_iff.mpr present
                · intro before it again
                  exact hits before it (back.trans again)
          · simp only [if_neg inside]
            apply ih resources small _ present hits
            apply (List.mem_cons.mp listed).resolve_left
            intro same
            rw [same, bagOf_some found] at present
            exact inside present

theorem searchTasks_hits {search : TaskId → Map Rsrc → Except Fault (Bool × Map Rsrc)} {c : TaskId}
    (places : List Nat) (bounded : ∀ idx ∈ places, idx < (bagOf resources key).length)
    (other : ∃ idx ∈ places, (bagOf resources key).getD idx noTask ≠ c)
    (hits : ∀ cur ∈ bagOf resources key, cur ≠ c →
      ∃ out, search cur resources = .ok (true, out)) :
    ∃ out, searchTasks search c key places resources = .ok (true, out) := by
  induction places with
  | nil =>
      obtain ⟨_, listed, _⟩ := other
      cases listed
  | cons idx places ih =>
      rw [searchTasks]
      dsimp only
      by_cases same : (bagOf resources key).getD idx noTask = c
      · rw [bagOf] at same
        rw [if_pos same]
        apply ih (fun place later => bounded place (List.mem_cons_of_mem _ later))
        obtain ⟨place, listed, differs⟩ := other
        rcases List.mem_cons.mp listed with rfl | later
        · rw [bagOf] at differs
          exact absurd same differs
        · exact ⟨place, later, differs⟩
      · have inside : (bagOf resources key).getD idx noTask ∈ bagOf resources key := by
          have here := bounded idx List.mem_cons_self
          rw [List.getD_eq_getElem?_getD, List.getElem?_eq_getElem here, Option.getD_some]
          exact List.getElem_mem here
        obtain ⟨out, hit⟩ := hits _ inside same
        rw [bagOf] at same hit
        rw [if_neg same, hit]
        exact ⟨out, rfl⟩

/-- Nothing is taken of the tasks that are at most `n` steps from `tid`. -/
def Intact (locks : Locks) (tid : TaskId) (n : Nat) (resources : Map Rsrc) : Prop :=
  ∀ y j, j ≤ n → Steps locks.next tid j y → ∀ r, locks.Has r y → y ∈ bagOf resources r

theorem Intact.same {n : Nat} (intact : Intact locks tid n resources)
    (same : SameBags resources out) : Intact locks tid n out :=
  fun y j near steps r has => (same.bags r).mem_iff.mpr (intact y j near steps r has)

/-- The entries that a search removes are of tasks farther away than the ones it still needs. -/
theorem Intact.taken (running : locks.waits tid = none) {n m : Nat} {x : TaskId} {it : Rsrc}
    (intact : Intact locks tid m resources) (found : resources.lookup key = some it)
    (less : n ≤ m) {far : Nat} (steps : Steps locks.next tid far x) (farther : n < far) :
    Intact locks tid n (taken resources key it x) := by
  intro y j near path r has
  have kept := intact y j (by omega) path r has
  rw [(bagOf_taken found x r).mem_iff]
  by_cases here : r = key
  · rw [if_pos here]
    apply (List.mem_erase_of_ne _).mpr kept
    rintro rfl
    have root : locks.next tid = none := by
      rw [Locks.next, running]
      rfl
    have same := Steps.unique root steps path
    omega
  · rw [if_neg here]
    exact kept

/-- The recursive call succeeds on a resource whose holder is a number of steps from `tid`. -/
def Hits (locks : Locks) (tid : TaskId) (bound : Nat)
    (iter : TaskId → UInt64 → Map Rsrc → Except Fault (Bool × Map Rsrc)) : Prop :=
  ∀ c key a n resources, bagEntries resources < bound → c ≠ noTask →
    locks.holder key = some a → a ≠ c → Steps locks.next tid n a → Within locks resources →
    Intact locks tid n resources → ∃ out, iter c key resources = .ok (true, out)

theorem resources_hit (valid : locks.Valid) (running : locks.waits tid = none) {bound : Nat}
    {iter : TaskId → UInt64 → Map Rsrc → Except Fault (Bool × Map Rsrc)}
    (keeps : ∀ cur key, Keeps bound (iter cur key)) (hits : Hits locks tid bound iter)
    (found : 0 < bound → ∀ key resources, ∃ out, iter tid key resources = .ok (true, out))
    {a x : TaskId} {n : Nat} (held : locks.holder key = some a) (steps : Steps locks.next tid n a)
    (small : bagEntries resources ≤ bound) (within : Within locks resources)
    (intact : Intact locks tid n resources) (member : x ∈ bagOf resources key) :
    ∃ out, searchResources (iter x) x resources.keys resources = .ok (true, out) := by
  have named : x ≠ noTask := valid.named (within key x member)
  have listed : ∀ {r}, x ∈ bagOf resources r → r ∈ resources.keys := by
    intro r inside
    cases known : resources.lookup r with
    | none => simp [bagOf, known] at inside
    | some rsrc => exact AList.mem_keys.mp (mem_of_lookup known)
  have few : ∀ {before it r}, SameBags resources before → before.lookup r = some it →
      x ∈ it.tasks → bagEntries (taken before r it x) < bound := by
    intro before it r same known inside
    have fewer := bagEntries_taken known inside
    rw [same.entries] at fewer
    rw [taken]
    omega
  by_cases holder : x = a
  · subst holder
    cases steps with
    | here =>
        apply searchResources_hits (keeps tid) tid _ _ small (listed member) member
        intro before it same known inside
        apply found (Nat.lt_of_le_of_lt (Nat.zero_le _) (few same known inside))
    | @step n _ b first rest =>
        -- the search follows the resource that the holder waits for
        obtain ⟨r, waits, next⟩ := Option.bind_eq_some_iff.mp first
        have inside : x ∈ bagOf resources r :=
          intact x (n + 1) (Nat.le_refl _) (.step first rest) r (Or.inr waits)
        apply searchResources_hits (keeps x) x _ _ small (listed inside) inside
        intro before it same known inside
        obtain ⟨-, h, heldBy, apart⟩ := valid.waited x r waits
        rw [next] at heldBy
        obtain rfl := Option.some.inj heldBy
        apply hits x r b n _ (few same known inside) named next apart rest
        · exact (within.same same).taken known x
        · exact (intact.same same).taken running known (Nat.le_succ n) (.step first rest)
            (Nat.lt_succ_self n)
  · -- a waiter is searched through the very resource it waits for
    have waits : locks.waits x = some key := by
      rcases within key x member with holds | waits
      · rw [held] at holds
        exact absurd (Option.some.inj holds).symm holder
      · exact waits
    apply searchResources_hits (keeps x) x _ _ small (listed member) member
    intro before it same known inside
    apply hits x key a n _ (few same known inside) named held (Ne.symm holder) steps
    · exact (within.same same).taken known x
    · exact (intact.same same).taken running known (Nat.le_refl n)
        (.step (next_of_waits waits held) steps) (Nat.lt_succ_self n)

theorem loops_hit (valid : locks.Valid) (running : locks.waits tid = none) {bound : Nat}
    {iter : TaskId → UInt64 → Map Rsrc → Except Fault (Bool × Map Rsrc)}
    (keeps : ∀ cur key, Keeps bound (iter cur key)) (hits : Hits locks tid bound iter)
    (found : 0 < bound → ∀ key resources, ∃ out, iter tid key resources = .ok (true, out))
    {a c y : TaskId} {n : Nat} (held : locks.holder key = some a)
    (steps : Steps locks.next tid n a) (small : bagEntries resources ≤ bound)
    (within : Within locks resources) (intact : Intact locks tid n resources)
    (member : y ∈ bagOf resources key) (other : y ≠ c) :
    ∃ out, searchTasks (fun cur resources =>
      searchResources (iter cur) cur resources.keys resources) c key
        (List.range (bagOf resources key).length) resources = .ok (true, out) := by
  apply searchTasks_hits
  · intro idx listed
    exact List.mem_range.mp listed
  · obtain ⟨idx, bounded, place⟩ := List.mem_iff_getElem.mp member
    refine ⟨idx, List.mem_range.mpr bounded, ?_⟩
    rw [List.getD_eq_getElem?_getD, List.getElem?_eq_getElem bounded, Option.getD_some, place]
    exact other
  · intro cur inside _
    exact resources_hit valid running keeps hits found held steps small within intact inside

theorem some_other {bag : List TaskId} {c y : TaskId} (member : y ∈ bag) (other : y ≠ c) :
    ¬ bag.all (· == c) = true := by
  intro all
  have same := List.all_eq_true.mp all y member
  exact other (by simpa using same)

theorem checkDeadlockIter_found (named : tid ≠ noTask) {fuel : Nat} (positive : 0 < fuel)
    (key : UInt64) (resources : Map Rsrc) :
    checkDeadlockIter fuel tid key tid resources = .ok (true, resources) := by
  obtain ⟨less, rfl⟩ := Nat.exists_eq_succ_of_ne_zero (Nat.pos_iff_ne_zero.mp positive)
  rw [checkDeadlockIter, if_neg named, if_pos rfl]

theorem checkDeadlockIter_hits (valid : locks.Valid) (named : tid ≠ noTask)
    (running : locks.waits tid = none) (fuel : Nat) :
    Hits locks tid fuel fun c key resources => checkDeadlockIter fuel c key tid resources := by
  induction fuel with
  | zero =>
      intro c key a n resources small
      omega
  | succ fuel ih =>
      intro c key a n resources small real held apart steps within intact
      have member : a ∈ bagOf resources key :=
        intact a n (Nat.le_refl n) steps key (Or.inl held)
      simp only [checkDeadlockIter, if_neg named, if_neg real]
      by_cases same : tid = c
      · rw [if_pos same]
        exact ⟨resources, rfl⟩
      rw [if_neg same]
      cases found : resources.lookup key with
      | none => simp [bagOf, found] at member
      | some rsrc =>
          have bag := bagOf_some found
          have others := some_other member apart
          rw [bag] at others
          simp only [if_neg others]
          rw [← bag]
          apply loops_hit valid running (fun cur other => checkDeadlockIter_same fuel cur other tid)
            ih _ held steps (Nat.le_of_lt_succ small) within intact member apart
          intro positive other middle
          exact ⟨middle, checkDeadlockIter_found named positive other middle⟩

end Complete

theorem checkDeadlockIter_true_iff (mirrors : Mirrors locks resources) (named : tid ≠ noTask)
    (running : locks.waits tid = none) (key : UInt64) :
    (∃ out, checkDeadlockIter (bagEntries resources + 1) tid key noTask resources =
      .ok (true, out)) ↔
    Leads locks tid key ∧ ∃ y ∈ bagOf resources key, y ≠ tid := by
  have within : Within locks resources := fun r x => (mirrors.has r x).mp
  have keeps := fun cur other => checkDeadlockIter_same (bagEntries resources) cur other tid
  simp only [checkDeadlockIter, if_neg named, if_neg (Ne.symm named), if_true]
  cases found : resources.lookup key with
  | none => simp [bagOf, found]
  | some rsrc =>
      rw [bagOf_some found]
      dsimp only
      constructor
      · intro hit
        obtain ⟨out, hit⟩ := hit
        split at hit
        · cases hit
        next others =>
          refine ⟨?_, ?_⟩
          · exact loops_lead mirrors.valid running _ keeps
              (checkDeadlockIter_leads mirrors.valid named running _) tid _ (Nat.le_refl _) within hit
          · simpa using others
      · intro both
        obtain ⟨⟨a, held, path⟩, y, member, other⟩ := both
        obtain ⟨n, steps⟩ := reaches_steps.mp path
        rw [if_neg (some_other member other), ← bagOf_some found]
        rw [← bagOf_some found] at member
        apply loops_hit mirrors.valid running keeps
          (checkDeadlockIter_hits mirrors.valid named running _) _ held steps (Nat.le_refl _) within
          (fun z j _ _ r => (mirrors.has r z).mpr) member other
        intro positive r middle
        exact ⟨middle, checkDeadlockIter_found named positive r middle⟩

def Contended (locks : Locks) (tid : TaskId) (key : UInt64) : Prop :=
  locks.holder key = some tid ∧ ∃ other, other ≠ tid ∧ locks.waits other = some key

theorem answers_closes_iff (mirrors : Mirrors locks resources) (running : locks.waits tid = none)
    (key : UInt64) :
    ((Leads locks tid key ∧ ∃ y ∈ bagOf resources key, y ≠ tid) ↔ Closes locks tid key) ↔
      ¬ Contended locks tid key := by
  constructor
  · intro agrees contended
    obtain ⟨holds, other, differs, waits⟩ := contended
    have leads : Leads locks tid key := ⟨tid, holds, ReflTransGen.refl⟩
    have member : other ∈ bagOf resources key := (mirrors.has key other).mpr (Or.inr waits)
    obtain ⟨h, held, apart, _⟩ := agrees.mp ⟨leads, other, member, differs⟩
    rw [holds] at held
    exact apart (Option.some.inj held).symm
  · intro free
    constructor
    · intro both
      obtain ⟨⟨h, held, path⟩, y, member, differs⟩ := both
      refine ⟨h, held, ?_, path⟩
      rintro rfl
      rcases (mirrors.has key y).mp member with holds | waits
      · rw [held] at holds
        exact differs (Option.some.inj holds).symm
      · exact free ⟨held, y, differs, waits⟩
    · intro closes
      obtain ⟨h, held, apart, path⟩ := closes
      exact ⟨⟨h, held, path⟩, h, (mirrors.has key h).mpr (Or.inl held), apart⟩

/-- `_check_deadlock` returns, keeps the bags, and decides whether the acquire closes a cycle,
unless the task holds the resource and another one waits for it. -/
theorem checkRsrcDeadlock_decides_iff (locks : Locks) (st : DeadlockState)
    (mirrors : Mirrors locks st.resources) (tid : TaskId) (named : tid ≠ noTask)
    (running : locks.waits tid = none) (key : UInt64) :
    (∃ res out, checkRsrcDeadlock tid key st = .ok (res, { st with resources := out }) ∧
      SameBags st.resources out ∧ (res = true ↔ Closes locks tid key)) ↔
    ¬ Contended locks tid key := by
  rw [← answers_closes_iff mirrors running key,
    ← checkDeadlockIter_true_iff mirrors named running key]
  obtain ⟨answer, out, ran, same⟩ :=
    checkDeadlockIter_same (bagEntries st.resources + 1) tid key noTask st.resources
      (Nat.lt_succ_self _)
  have whole : checkRsrcDeadlock tid key st = .ok (answer, { st with resources := out }) := by
    rw [checkRsrcDeadlock, ran, ok_bind]
  have answered : (∃ out, checkDeadlockIter (bagEntries st.resources + 1) tid key noTask
      st.resources = .ok (true, out)) ↔ answer = true := by
    rw [ran]
    simp
  rw [answered, whole]
  constructor
  · intro decided
    obtain ⟨res, last, again, _, closes⟩ := decided
    cases again
    exact closes
  · intro closes
    exact ⟨answer, out, rfl, same, closes⟩

def chained : Locks :=
  { holder := fun r => if r = 16 then some 1 else if r = 32 then some 2 else none
    depth := fun _ => 1
    waits := fun x => if x = 2 then some 16 else none }

def chainedState : DeadlockState :=
  { resources := (AList.insert 16 { tasks := [1, 2], owner := 1 } ∅).insert 32
      { tasks := [2], owner := 2 }
    lost := ∅ }

theorem chained_valid : chained.Valid := by
  refine ⟨?_, ?_⟩
  · intro r h held
    refine ⟨Nat.one_pos, ?_⟩
    simp only [chained] at held
    split at held
    · rw [← Option.some.inj held]
      decide
    split at held
    · rw [← Option.some.inj held]
      decide
    · cases held
  · intro x r waits
    simp only [chained] at waits
    split at waits
    next two =>
      rw [← Option.some.inj waits, two]
      exact ⟨by decide, 1, rfl, by decide⟩
    next => cases waits

theorem chained_mirrors : Mirrors chained chainedState.resources := by
  refine ⟨chained_valid, ?_⟩
  intro r x
  by_cases second : r = 32
  · subst second
    have bag : bagOf chainedState.resources 32 = [2] := rfl
    rw [bag, List.count_singleton]
    by_cases two : x = 2
    · simp [chained, two]
    · simp [chained, two, Ne.symm two]
  · by_cases first : r = 16
    · subst first
      have bag : bagOf chainedState.resources 16 = [1, 2] := rfl
      rw [bag, List.count_cons, List.count_singleton]
      by_cases two : x = 2
      · simp [chained, two]
      · simp [chained, two, Ne.symm two]
    · rw [bagOf, chainedState, AList.lookup_insert_ne second, AList.lookup_insert_ne first]
      simp [chained, first, second, Ne.symm first]

theorem chained_cycle_decided :
    ∃ res out, checkRsrcDeadlock 1 32 chainedState =
        .ok (res, { chainedState with resources := out }) ∧
      SameBags chainedState.resources out ∧ (res = true ↔ Closes chained 1 32) := by
  apply (checkRsrcDeadlock_decides_iff chained chainedState chained_mirrors 1 (by decide) rfl 32).mpr
  intro contended
  cases contended.1

/-- Task 1 acquires mutex 16 again while task 2 waits for it: the search reports a deadlock. -/
theorem recursive_acquire_reported :
    ¬ ∀ (locks : Locks) (st : DeadlockState) (tid : TaskId) (key : UInt64),
      Mirrors locks st.resources → tid ≠ noTask → locks.waits tid = none →
      ∃ res out, checkRsrcDeadlock tid key st = .ok (res, { st with resources := out }) ∧
        SameBags st.resources out ∧ (res = true ↔ Closes locks tid key) := by
  intro decides
  obtain ⟨res, out, ran, -, closes⟩ :=
    decides chained chainedState 1 16 chained_mirrors (by decide) rfl
  have reported : (checkRsrcDeadlock 1 16 chainedState).map Prod.fst = .ok true := by decide
  rw [ran] at reported
  obtain ⟨h, held, apart, -⟩ := closes.mp (Except.ok.inj reported)
  exact apart (Option.some.inj held).symm

end Lotto.DeadlockCycles
