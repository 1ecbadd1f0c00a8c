import Lotto.Base
import Mathlib.Data.Nat.Bitwise

namespace Lotto.UafCheck

open Library.FaultRun

def word : Nat := 18446744073709551616

/-- `UAFC_CANARY`. -/
def canary : Nat := 0xBEEFFEED

def metadataSize : Nat := 24

def mallocAlignment : Nat := 16

structure AllocT where
  base : Nat
  size : Nat
  canary : Nat

/-- `uafc_t` with the `alloc_t` at each address; `pages` is the queue `protected`. -/
structure Uafc where
  headers : Nat → AllocT
  pages : List Nat
  maxPages : Nat

/-- The calls of `uc->free` and of `mprotect`, with the range that is protected. -/
inductive Effect where
  | free (p : Nat)
  | protect (first length : Nat)
  | unprotect (first length : Nat)

def pagemask (pagesize : Nat) : Nat := word - 1 - (pagesize - 1)

/-- `(alloc_t *)p - 1`. -/
def header (p : Nat) : Nat := (p + (word - metadataSize)) % word

def paddedSize (pagesize n : Nat) : Nat := (n + metadataSize + 2 * pagesize) % word

def uafcPlace (pagesize base count n : Nat) (uc : Uafc) : Except Fault (Nat × Uafc) := do
  let next := (base + pagesize + metadataSize) % word &&& pagemask pagesize
  check (decide (base ≤ header next)) .uafBefore
  check (decide ((next + n) % word ≤ (base + count) % word)) .uafBehind
  .ok (next, { uc with headers := Function.update uc.headers (header next) ⟨base, n, canary⟩ })

def uafcAlloc (alloc : Nat → Nat) (pagesize : Nat) (sampled : Bool) (n : Nat) (uc : Uafc) :
    Except Fault (Nat × Uafc) :=
  if sampled = false then .ok (alloc n, uc)
  else do
    let base := alloc (paddedSize pagesize n)
    check (decide (base ≠ 0)) .uafNoMemory
    uafcPlace pagesize base (paddedSize pagesize n) n uc

def uafcDrop (pagesize : Nat) (uc : Uafc) : List Effect × Bool × Uafc :=
  match uc.pages with
  | [] => ([], false, uc)
  | ptr :: pages =>
      let a := uc.headers ptr
      ([.unprotect (ptr + metadataSize) pagesize, .free a.base], true,
        { uc with
          pages := pages
          headers := Function.update uc.headers ptr { a with canary := word - 1 - canary } })

/-- `bounded_spsc_enq`. -/
def enqueue (a : Nat) (uc : Uafc) : Option Uafc :=
  if uc.pages.length < uc.maxPages then some { uc with pages := uc.pages ++ [a] } else none

def keepPage (pagesize a : Nat) (uc : Uafc) : Except Fault (List Effect × Uafc) :=
  match enqueue a uc with
  | some uc => .ok ([], uc)
  | none => do
      check (uafcDrop pagesize uc).2.1 .uafQueue
      match enqueue a (uafcDrop pagesize uc).2.2 with
      | some uc' => .ok ((uafcDrop pagesize uc).1, uc')
      | none => .error .uafQueue

def uafcFree (pagesize p : Nat) (uc : Uafc) : Except Fault (List Effect × Uafc) :=
  if p = 0 then .ok ([], uc)
  else if p &&& pagemask pagesize ≠ p ∨ (uc.headers (header p)).canary ≠ canary then
    .ok ([.free p], uc)
  else do
    let (effects, uc) ← keepPage pagesize (header p) uc
    .ok (.protect p pagesize :: effects, uc)

def uafcAlignedAlloc (alloc : Nat → Nat) (pagesize : Nat) (sampled : Bool) (alignment size : Nat)
    (uc : Uafc) : Except Fault (Nat × Uafc) := do
  check (decide (alignment ≤ pagesize)) .uafAlignment
  uafcAlloc alloc pagesize sampled size uc

/-- Every block has the alignment of `malloc` and ends below the last address. -/
def DefaultAligned (alloc : Nat → Nat) : Prop :=
  ∀ n, alloc n = 0 ∨ mallocAlignment ∣ alloc n ∧ alloc n + n < word

structure Within (base count pagesize size p : Nat) (uc : Uafc) : Prop where
  metadata : base + metadataSize ≤ p
  user : p + size ≤ base + count
  page : ∀ effects uc', uafcFree pagesize p uc = .ok (effects, uc') →
    ∀ first length, .protect first length ∈ effects → base ≤ first ∧ first + length ≤ base + count

/-- There is no memory, or the pointer is aligned and a sampled allocation stays in its block. -/
def Honours (alloc : Nat → Nat) (pagesize : Nat) (sampled : Bool) (alignment size : Nat)
    (uc : Uafc) : Prop :=
  uafcAlignedAlloc alloc pagesize sampled alignment size uc = .error .uafNoMemory ∨
    ∃ p uc', uafcAlignedAlloc alloc pagesize sampled alignment size uc = .ok (p, uc') ∧
      alignment ∣ p ∧
      (sampled = true → Within (alloc (paddedSize pagesize size)) (paddedSize pagesize size) pagesize
        size p uc')

variable {alloc : Nat → Nat} {pagesize alignment size p x j k : Nat} {sampled : Bool} {uc uc' : Uafc}

theorem check_fault {cond : Bool} {fault other : Fault} (failed : check cond fault = .error other) :
    other = fault := by
  cases cond with
  | true => cases failed
  | false => exact (Except.error.inj failed).symm

section Pages

theorem word_eq : word = 2 ^ 64 := rfl

theorem pagemask_eq (small : k ≤ 62) : pagemask (2 ^ k) = 2 ^ k * (2 ^ (64 - k) - 1) := by
  have whole : 2 ^ k * 2 ^ (64 - k) = 2 ^ 64 := by
    rw [← Nat.pow_add, Nat.add_sub_cancel' (by omega)]
  have page := Nat.two_pow_pos k
  have below : 2 ^ k ≤ 2 ^ 64 := Nat.pow_le_pow_right Nat.two_pos (by omega)
  rw [Nat.mul_sub, whole, Nat.mul_one, pagemask, word_eq]
  omega

theorem page_limit (small : k ≤ 62) : metadataSize + 2 * 2 ^ k + mallocAlignment < word := by
  have page : 2 ^ k ≤ 4611686018427387904 := Nat.pow_le_pow_right Nat.two_pos small
  rw [metadataSize, mallocAlignment, word]
  omega

theorem and_pagemask (small : k ≤ 62) (address : x < word) :
    x &&& pagemask (2 ^ k) = 2 ^ k * (x / 2 ^ k) := by
  apply Nat.eq_of_testBit_eq
  intro i
  rw [Nat.testBit_and, pagemask_eq small, Nat.testBit_two_pow_mul, Nat.testBit_two_pow_mul,
    Nat.testBit_two_pow_sub_one, Nat.testBit_div_two_pow]
  by_cases low : i < k
  · simp [Nat.not_le.mpr low]
  · have high : k ≤ i := Nat.not_lt.mp low
    rw [Nat.sub_add_cancel high]
    by_cases last : i < 64
    · have inside : i - k < 64 - k := by omega
      simp [high, inside]
    · have above : x < 2 ^ i := by
        rw [word_eq] at address
        exact address.trans_le (Nat.pow_le_pow_right Nat.two_pos (Nat.not_lt.mp last))
      simp [Nat.testBit_lt_two_pow above]

theorem page_spec (small : k ≤ 62) (address : x < word) :
    2 ^ k ∣ x &&& pagemask (2 ^ k) ∧ x &&& pagemask (2 ^ k) ≤ x ∧
      x < (x &&& pagemask (2 ^ k)) + 2 ^ k := by
  rw [and_pagemask small address]
  refine ⟨Nat.dvd_mul_right _ _, Nat.mul_div_le x _, ?_⟩
  have rest := Nat.mod_lt x (Nat.two_pow_pos k)
  have whole := Nat.div_add_mod x (2 ^ k)
  omega

theorem header_eq (metadata : metadataSize ≤ p) (address : p < word) :
    header p = p - metadataSize := by
  have shifted : p + (word - metadataSize) = p - metadataSize + word := by
    rw [metadataSize, word] at *
    omega
  rw [header, shifted, Nat.add_mod_right]
  exact Nat.mod_eq_of_lt (by omega)

end Pages

section Free

theorem keepPage_protects {effects : List Effect} {a first length : Nat}
    (run : keepPage pagesize a uc = .ok (effects, uc')) : .protect first length ∉ effects := by
  rw [keepPage] at run
  split at run
  · cases run
    exact List.not_mem_nil
  · obtain ⟨_, _, run⟩ := bind_eq_ok.mp run
    split at run
    · cases run
      rw [uafcDrop]
      split <;> simp
    · cases run

theorem uafcFree_protects {effects : List Effect} {first length : Nat}
    (run : uafcFree pagesize p uc = .ok (effects, uc')) (member : .protect first length ∈ effects) :
    first = p ∧ length = pagesize := by
  rw [uafcFree] at run
  split at run
  · cases run
    exact absurd member List.not_mem_nil
  · split at run
    · cases run
      simp at member
    · obtain ⟨⟨others, next⟩, kept, run⟩ := bind_eq_ok.mp run
      cases run
      rcases List.mem_cons.mp member with same | other
      · cases same
        exact ⟨rfl, rfl⟩
      · exact absurd other (keepPage_protects kept)

end Free

section Sampled

theorem uafcPlace_ok {base : Nat} (small : k ≤ 62)
    (below : base + (size + metadataSize + 2 * 2 ^ k) < word) (uc : Uafc) :
    ∃ p uc', uafcPlace (2 ^ k) base (size + metadataSize + 2 * 2 ^ k) size uc = .ok (p, uc') ∧
      2 ^ k ∣ p ∧ Within base (size + metadataSize + 2 * 2 ^ k) (2 ^ k) size p uc' := by
  have address : base + 2 ^ k + metadataSize < word := by omega
  obtain ⟨multiple, low, high⟩ := page_spec small address
  rw [uafcPlace, Nat.mod_eq_of_lt address]
  generalize (base + 2 ^ k + metadataSize) &&& pagemask (2 ^ k) = next at multiple low high ⊢
  have before : header next = next - metadataSize := header_eq (by omega) (by omega)
  have first : base ≤ header next := by omega
  have last : (next + size) % word ≤ (base + (size + metadataSize + 2 * 2 ^ k)) % word := by
    rw [Nat.mod_eq_of_lt (by omega), Nat.mod_eq_of_lt below]
    omega
  rw [decide_eq_true first, decide_eq_true last]
  refine ⟨next, _, rfl, multiple, ?_⟩
  constructor
  case metadata => omega
  case user => omega
  case page =>
    intro effects uc' freed page length member
    obtain ⟨rfl, rfl⟩ := uafcFree_protects freed member
    omega

theorem uafcPlace_error {base count n : Nat} {fault : Fault}
    (failed : uafcPlace pagesize base count n uc = .error fault) :
    fault = .uafBefore ∨ fault = .uafBehind := by
  rw [uafcPlace] at failed
  obtain check | ⟨_, _, rest⟩ := bind_eq_error.mp failed
  · exact .inl (check_fault check)
  · obtain check | ⟨_, _, rest⟩ := bind_eq_error.mp rest
    · exact .inr (check_fault check)
    · cases rest

theorem sampled_run (aligned : alignment ≤ pagesize)
    (some : alloc (paddedSize pagesize size) ≠ 0) (uc : Uafc) :
    uafcAlignedAlloc alloc pagesize true alignment size uc =
      uafcPlace pagesize (alloc (paddedSize pagesize size)) (paddedSize pagesize size) size uc := by
  have real : decide (alloc (paddedSize pagesize size) ≠ 0) = true := decide_eq_true some
  rw [uafcAlignedAlloc, decide_eq_true aligned, check_true, ok_bind, uafcAlloc, if_neg (by decide)]
  simp only [real, check_true, ok_bind]

theorem sampled_none (aligned : alignment ≤ pagesize)
    (none : alloc (paddedSize pagesize size) = 0) (uc : Uafc) :
    uafcAlignedAlloc alloc pagesize true alignment size uc = .error .uafNoMemory := by
  rw [uafcAlignedAlloc, decide_eq_true aligned, check_true, ok_bind, uafcAlloc, if_neg (by decide),
    none]
  rfl

theorem sampled_honours (small : k ≤ 62) (aligned : 2 ^ j ≤ 2 ^ k)
    (guaranteed : DefaultAligned alloc) (fits : size + metadataSize + 2 * 2 ^ k < word) (uc : Uafc) :
    Honours alloc (2 ^ k) true (2 ^ j) size uc := by
  have padded : paddedSize (2 ^ k) size = size + metadataSize + 2 * 2 ^ k := Nat.mod_eq_of_lt fits
  by_cases none : alloc (paddedSize (2 ^ k) size) = 0
  · exact .inl (sampled_none aligned none uc)
  · right
    rw [sampled_run aligned none, padded]
    rw [padded] at none
    have below := (guaranteed (size + metadataSize + 2 * 2 ^ k)).resolve_left none
    obtain ⟨p, uc', run, multiple, within⟩ := uafcPlace_ok small below.2 uc
    refine ⟨p, uc', run, ?_, fun _ => within⟩
    exact (Nat.pow_dvd_pow 2 ((Nat.pow_le_pow_iff_right Nat.one_lt_two).mp aligned)).trans multiple

end Sampled

section Plain

theorem plain_run (aligned : alignment ≤ pagesize) (uc : Uafc) :
    uafcAlignedAlloc alloc pagesize false alignment size uc = .ok (alloc size, uc) := by
  rw [uafcAlignedAlloc, decide_eq_true aligned]
  rfl

theorem plain_honours (aligned : alignment ≤ pagesize) (guaranteed : DefaultAligned alloc)
    (weak : alignment ∣ mallocAlignment ∨ word ≤ mallocAlignment + size) (uc : Uafc) :
    Honours alloc pagesize false alignment size uc := by
  refine .inr ⟨alloc size, uc, plain_run aligned uc, ?_, nofun⟩
  rcases guaranteed size with none | ⟨multiple, below⟩
  · rw [none]
    exact Nat.dvd_zero _
  · rcases weak with divides | large
    · exact divides.trans multiple
    · have none : alloc size = 0 := by
        by_contra some
        have above := Nat.le_of_dvd (Nat.pos_of_ne_zero some) multiple
        omega
      rw [none]
      exact Nat.dvd_zero _

end Plain

section Lowest

def lowest (n : Nat) : Nat := if mallocAlignment + n < word then mallocAlignment else 0

theorem lowest_eq {n : Nat} (room : mallocAlignment + n < word) : lowest n = mallocAlignment :=
  if_pos room

theorem mallocAlignment_ne : mallocAlignment ≠ 0 := by decide

theorem lowest_aligned : DefaultAligned lowest := by
  intro n
  rw [lowest]
  split
  case isTrue below => exact .inr ⟨Nat.dvd_refl _, below⟩
  case isFalse => exact .inl rfl

theorem remainder_lt {n padding start words : Nat} (fits : n < words)
    (wraps : words ≤ n + padding) (limit : padding + start < words) :
    (n + padding) % words < n ∧ (n + padding) % words + start < words := by
  have rest : (n + padding) % words = n + padding - words := by
    rw [Nat.mod_eq_sub_mod wraps]
    exact Nat.mod_eq_of_lt (by omega)
  omega

theorem not_within {base count : Nat} (less : count < size) : ¬Within base count pagesize size p uc := by
  rintro ⟨metadata, user, -⟩
  omega

theorem wrapped_fails (small : k ≤ 62) (aligned : alignment ≤ 2 ^ k) (fits : size < word)
    (wraps : word ≤ size + (metadataSize + 2 * 2 ^ k)) :
    ¬Honours lowest (2 ^ k) true alignment size uc := by
  obtain ⟨less, room⟩ := remainder_lt fits wraps (page_limit small)
  rw [← Nat.add_assoc, ← paddedSize] at less room
  have block := lowest_eq ((Nat.add_comm _ _).trans_lt room)
  rw [Honours, sampled_run aligned (by rw [block]; exact mallocAlignment_ne)]
  rintro (failed | ⟨p, uc', -, -, within⟩)
  · rcases uafcPlace_error failed with fault | fault <;> cases fault
  · exact not_within less (within rfl)

end Lowest

/-- The pointers are aligned and the blocks large enough for every such allocator if and only if a
sampled size does not wrap and the alignment of a plain pointer is one that `malloc` guarantees. -/
theorem aligned_alloc_honours_iff (small : k ≤ 62) (aligned : 2 ^ j ≤ 2 ^ k) (fits : size < word)
    (sampled : Bool) (uc : Uafc) :
    (∀ alloc, DefaultAligned alloc → Honours alloc (2 ^ k) sampled (2 ^ j) size uc) ↔
      (sampled = true → size + metadataSize + 2 * 2 ^ k < word) ∧
        (sampled = false → 2 ^ j ∣ mallocAlignment ∨ word ≤ mallocAlignment + size) := by
  constructor
  · intro honours
    have low := honours lowest lowest_aligned
    constructor
    · rintro rfl
      by_contra wraps
      rw [Nat.add_assoc] at wraps
      exact wrapped_fails small aligned fits (Nat.not_lt.mp wraps) low
    · rintro rfl
      by_cases below : mallocAlignment + size < word
      · left
        rw [Honours, plain_run aligned] at low
        rcases low with failed | ⟨p, uc', run, multiple, -⟩
        · cases failed
        · cases run
          rwa [lowest, if_pos below] at multiple
      · exact .inr (Nat.not_lt.mp below)
  · rintro ⟨room, weak⟩ alloc guaranteed
    cases sampled with
    | true => exact sampled_honours small aligned guaranteed (room rfl) uc
    | false => exact plain_honours aligned guaranteed (weak rfl) uc

theorem page_aligned_honours :
    Honours lowest (2 ^ 12) true (2 ^ 12) 100 ⟨fun _ => ⟨0, 0, 0⟩, [], 16⟩ := by
  apply (aligned_alloc_honours_iff _ _ _ true _).mpr _ lowest lowest_aligned
  · decide
  · decide
  · decide
  · exact ⟨fun _ => by decide, nofun⟩

/-- An allocation that is not sampled has the alignment of `malloc` whatever the caller asks for. -/
theorem plain_not_aligned : DefaultAligned lowest ∧ 32 ≤ 2 ^ 12 ∧
    ¬Honours lowest (2 ^ 12) false 32 100 ⟨fun _ => ⟨0, 0, 0⟩, [], 16⟩ := by
  refine ⟨lowest_aligned, by decide, ?_⟩
  rintro (failed | ⟨p, uc', run, multiple, -⟩)
  · cases failed
  · cases run
    revert multiple
    decide

end Lotto.UafCheck
