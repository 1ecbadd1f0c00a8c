import Mathlib.Data.Finset.Basic
import Mathlib.Algebra.Order.Group.Multiset

namespace Library.Ownership

variable {α : Type} [DecidableEq α]

/-- The live blocks of a heap and, of these, the ones that some objects own. An owned block that is
not live, or is owned twice, shows that the objects are broken. -/
structure Heap (α : Type) where
  live : Finset α
  owned : Multiset α

structure Sound (h : Heap α) : Prop where
  nodup : h.owned.Nodup
  live : ∀ b ∈ h.owned, b ∈ h.live

/-- What the owners do with their blocks: they give one back or get a new one. -/
inductive Step : Heap α → Heap α → Prop
  | release {live owned} (b : α) (member : b ∈ live) :
      Step ⟨live, b ::ₘ owned⟩ ⟨live.erase b, owned⟩
  | acquire {live owned} (b : α) (fresh : b ∉ live) :
      Step ⟨live, owned⟩ ⟨insert b live, b ::ₘ owned⟩

abbrev Steps (h h' : Heap α) : Prop := Relation.ReflTransGen Step h h'

def steal (b : α) (h : Heap α) : Heap α := ⟨h.live.erase b, h.owned⟩

def Foreign (h : Heap α) (b : α) : Prop := b ∈ h.live ∧ b ∉ h.owned

variable {h h' : Heap α} {b : α}

theorem Sound.step (sound : Sound h) (step : Step h h') : Sound h' := by
  cases step with
  | @release live owned c member =>
      obtain ⟨absent, nodup⟩ := Multiset.nodup_cons.mp sound.nodup
      refine ⟨nodup, ?_⟩
      intro d inside
      apply Finset.mem_erase.mpr
      refine ⟨?_, sound.live d (Multiset.mem_cons_of_mem inside)⟩
      rintro rfl
      exact absent inside
  | @acquire live owned c fresh =>
      refine ⟨Multiset.nodup_cons.mpr ⟨fun inside => fresh (sound.live c inside), sound.nodup⟩, ?_⟩
      intro d inside
      apply Finset.mem_insert.mpr
      rcases Multiset.mem_cons.mp inside with rfl | old
      · exact .inl rfl
      · exact .inr (sound.live d old)

theorem Sound.of_step (sound : Sound h') (step : Step h h') : Sound h := by
  cases step with
  | @release live owned c member =>
      refine ⟨Multiset.nodup_cons.mpr ⟨?_, sound.nodup⟩, ?_⟩
      · intro inside
        exact Finset.notMem_erase c live (sound.live c inside)
      · intro d inside
        rcases Multiset.mem_cons.mp inside with rfl | old
        · exact member
        · exact Finset.mem_of_mem_erase (sound.live d old)
  | @acquire live owned c fresh =>
      obtain ⟨absent, nodup⟩ := Multiset.nodup_cons.mp sound.nodup
      refine ⟨nodup, ?_⟩
      intro d inside
      rcases Finset.mem_insert.mp (sound.live d (Multiset.mem_cons_of_mem inside)) with rfl | old
      · exact absurd inside absent
      · exact old

omit [DecidableEq α] in
theorem Sound.single {live : Finset α} {b : α} (member : b ∈ live) : Sound ⟨live, {b}⟩ := by
  refine ⟨Multiset.nodup_singleton b, ?_⟩
  intro c inside
  rwa [Multiset.mem_singleton.mp inside]

omit [DecidableEq α] in
theorem Sound.of_le {live : Finset α} {part all : Multiset α} (sound : Sound ⟨live, all⟩)
    (below : part ≤ all) : Sound ⟨live, part⟩ :=
  ⟨Multiset.nodup_of_le below sound.nodup, fun b member => sound.live b (Multiset.mem_of_le below member)⟩

theorem Foreign.step (foreign : Foreign h b) (step : Step h h') : Foreign h' b := by
  obtain ⟨live, unowned⟩ := foreign
  cases step with
  | @release _ owned c member =>
      rw [Multiset.mem_cons, not_or] at unowned
      exact ⟨Finset.mem_erase.mpr ⟨unowned.1, live⟩, unowned.2⟩
  | @acquire _ owned c fresh =>
      refine ⟨Finset.mem_insert_of_mem live, ?_⟩
      rw [Multiset.mem_cons, not_or]
      refine ⟨?_, unowned⟩
      rintro rfl
      exact fresh live

theorem Foreign.of_step (foreign : Foreign h' b) (step : Step h h') : Foreign h b := by
  obtain ⟨live, unowned⟩ := foreign
  cases step with
  | @release _ owned c member =>
      obtain ⟨other, inside⟩ := Finset.mem_erase.mp live
      refine ⟨inside, ?_⟩
      rw [Multiset.mem_cons, not_or]
      exact ⟨other, unowned⟩
  | @acquire _ owned c fresh =>
      rw [Multiset.mem_cons, not_or] at unowned
      exact ⟨(Finset.mem_insert.mp live).resolve_left unowned.1, unowned.2⟩

theorem sound_steps_iff (steps : Steps h h') : Sound h' ↔ Sound h := by
  induction steps with
  | refl => exact Iff.rfl
  | tail _ step ih => exact ⟨fun sound => ih.mp (sound.of_step step), fun sound => (ih.mpr sound).step step⟩

theorem foreign_steps_iff (steps : Steps h h') : Foreign h' b ↔ Foreign h b := by
  induction steps with
  | refl => exact Iff.rfl
  | tail _ step ih =>
      exact ⟨fun foreign => ih.mp (foreign.of_step step), fun foreign => (ih.mpr foreign).step step⟩

theorem sound_steal_iff (live : b ∈ h.live) : Sound (steal b h) ↔ Sound h ∧ Foreign h b := by
  constructor
  · intro sound
    have unowned : b ∉ h.owned := fun inside => Finset.notMem_erase b _ (sound.live b inside)
    exact ⟨⟨sound.nodup, fun c inside => Finset.mem_of_mem_erase (sound.live c inside)⟩, live, unowned⟩
  · rintro ⟨sound, -, unowned⟩
    refine ⟨sound.nodup, ?_⟩
    intro c inside
    apply Finset.mem_erase.mpr
    refine ⟨?_, sound.live c inside⟩
    rintro rfl
    exact unowned inside

theorem foreign_steal_iff (c : α) : Foreign (steal b h) c ↔ c ≠ b ∧ Foreign h c := by
  rw [Foreign, Foreign, steal, Finset.mem_erase]
  exact and_assoc

section Apart

def Apart (h : Heap α) (blocks : List α) : Prop := blocks.Nodup ∧ ∀ b ∈ blocks, Foreign h b

omit [DecidableEq α] in
theorem apart_nil (h : Heap α) : Apart h [] := ⟨List.nodup_nil, nofun⟩

omit [DecidableEq α] in
theorem apart_singleton (h : Heap α) (b : α) : Apart h [b] ↔ Foreign h b := by
  simp [Apart]

omit [DecidableEq α] in
theorem apart_append_iff {first rest : List α}
    (gone : ∀ b, Foreign h' b ↔ Foreign h b ∧ b ∉ first) :
    Apart h (first ++ rest) ↔ Apart h first ∧ Apart h' rest := by
  simp only [Apart, List.nodup_append', List.disjoint_right, List.forall_mem_append, gone]
  constructor
  · rintro ⟨⟨one, two, other⟩, live, left⟩
    exact ⟨⟨one, live⟩, two, fun b member => ⟨left b member, other member⟩⟩
  · rintro ⟨⟨one, live⟩, two, left⟩
    exact ⟨⟨one, two, fun b member => (left b member).2⟩, live, fun b member => (left b member).1⟩

end Apart

section Handles

variable {ε β γ : Type} {stop : ε}

def Heap.frame (h : Heap α) (others : Multiset α) : Heap α := ⟨h.live, h.owned + others⟩

omit [DecidableEq α] in
theorem Heap.frame_frame (h : Heap α) (mine others : Multiset α) :
    (h.frame mine).frame others = h.frame (mine + others) := by
  rw [frame, frame, frame, add_assoc]

/-- A computation that steps from a heap to the one `after` it, whoever else owns blocks, and that
only fails with `stop` where the owners are sound. -/
structure Handles (stop : ε) (h : Heap α) (run : Except ε β) (after : β → Heap α)
    (post : β → Prop) : Prop where
  post : ∀ r, run = .ok r → post r
  steps : ∀ r, run = .ok r → ∀ others, Steps (h.frame others) ((after r).frame others)
  total : ∀ others, Sound (h.frame others) → run = .error stop ∨ ∃ r, run = .ok r

variable {run : Except ε β} {after : β → Heap α} {post : β → Prop}

theorem Handles.done {r : β} (same : after r = h) (holds : post r) :
    Handles stop h (.ok r) after post where
  post := by
    rintro _ ⟨⟩
    exact holds
  steps := by
    rintro _ ⟨⟩ others
    rw [same]
  total := fun _ _ => .inr ⟨r, rfl⟩

theorem Handles.bind {next : β → Except ε γ} {after' : γ → Heap α} {post' : γ → Prop}
    (first : Handles stop h run after post)
    (rest : ∀ r, post r → Handles stop (after r) (next r) after' post') :
    Handles stop h (run >>= next) after' post' where
  post := by
    cases run with
    | error e => nofun
    | ok r => exact (rest r (first.post r rfl)).post
  steps := by
    cases run with
    | error e => nofun
    | ok r =>
        intro c last others
        exact (first.steps r rfl others).trans ((rest r (first.post r rfl)).steps c last others)
  total := by
    intro others sound
    cases run with
    | error e =>
        rcases first.total others sound with same | ⟨r, found⟩
        · cases same
          exact .inl rfl
        · cases found
    | ok r =>
        apply (rest r (first.post r rfl)).total others
        exact (sound_steps_iff (first.steps r rfl others)).mpr sound

theorem Handles.frame (handles : Handles stop h run after post) (others : Multiset α) :
    Handles stop (h.frame others) run (fun r => (after r).frame others) post where
  post := handles.post
  steps := by
    intro r done more
    rw [Heap.frame_frame, Heap.frame_frame]
    exact handles.steps r done (others + more)
  total := by
    intro more sound
    rw [Heap.frame_frame] at sound
    exact handles.total (others + more) sound

theorem Handles.mono {post' : β → Prop} (handles : Handles stop h run after post)
    (weaken : ∀ r, post r → post' r) : Handles stop h run after post' :=
  ⟨fun r done => weaken r (handles.post r done), handles.steps, handles.total⟩

end Handles

section Keeps

variable {ε β γ : Type} {stop : ε} {h : Heap α} {run : Except ε β} {after : β → Heap α}
  {post : β → Prop}

/-- A computation that, from a heap whose owners are sound, stops or leaves such a heap. -/
def Keeps (stop : ε) (h : Heap α) (run : Except ε β) (after : β → Heap α) (post : β → Prop) : Prop :=
  ∀ others, Sound (h.frame others) →
    run = .error stop ∨ ∃ r, run = .ok r ∧ post r ∧ Sound ((after r).frame others)

theorem Handles.keeps (handles : Handles stop h run after post) : Keeps stop h run after post := by
  intro others sound
  apply (handles.total others sound).imp_right
  rintro ⟨r, done⟩
  exact ⟨r, done, handles.post r done, (sound_steps_iff (handles.steps r done others)).mpr sound⟩

omit [DecidableEq α] in
theorem Keeps.done {r : β} (same : after r = h) (holds : post r) : Keeps stop h (.ok r) after post := by
  intro others sound
  rw [← same] at sound
  exact .inr ⟨r, rfl, holds, sound⟩

omit [DecidableEq α] in
theorem Keeps.bind {next : β → Except ε γ} {after' : γ → Heap α} {post' : γ → Prop}
    (first : Keeps stop h run after post)
    (rest : ∀ r, post r → Keeps stop (after r) (next r) after' post') :
    Keeps stop h (run >>= next) after' post' := by
  intro others sound
  rcases first others sound with stopped | ⟨r, done, holds, left⟩
  · rw [stopped]
    exact .inl rfl
  · rw [done]
    exact rest r holds others left

omit [DecidableEq α] in
theorem Keeps.frame (keeps : Keeps stop h run after post) (others : Multiset α) :
    Keeps stop (h.frame others) run (fun r => (after r).frame others) post := by
  intro more sound
  simp only [Heap.frame_frame] at sound ⊢
  exact keeps (others + more) sound

omit [DecidableEq α] in
theorem Keeps.mono {post' : β → Prop} (keeps : Keeps stop h run after post)
    (weaken : ∀ r, post r → post' r) : Keeps stop h run after post' := by
  intro others sound
  apply (keeps others sound).imp_right
  rintro ⟨r, done, holds, left⟩
  exact ⟨r, done, weaken r holds, left⟩

omit [DecidableEq α] in
theorem Keeps.assume (keeps : Sound h → Keeps stop h run after post) :
    Keeps stop h run after post := by
  intro others sound
  exact keeps (sound.of_le (Multiset.le_add_right _ _)) others sound

end Keeps

end Library.Ownership
