import Lotto.RspUtil
import Mathlib.Data.Nat.Log
import Mathlib.Algebra.Group.Nat.Defs

namespace Lotto.RspHex

open Library.FaultRun RspUtil

/-- The number of hexadecimal digits of a number; 0 has one. -/
def hexDigits (n : Nat) : Nat := Nat.log 16 n + 1

def hexString (v : UInt64) : List UInt8 := (hexLoop (chrLength v) v []).1

variable {v : UInt64} {k w : Nat} {str front tail memory : List UInt8} {chr c : UInt8}

section Digits

theorem toNat_low (v : UInt64) : (v &&& 0xF).toUInt8.toNat = v.toNat % 16 := by
  have mask : v.toNat &&& 15 = v.toNat % 16 := Nat.and_two_pow_sub_one_eq_mod v.toNat 4
  rw [UInt64.toNat_toUInt8, UInt64.toNat_and]
  change (v.toNat &&& 15) % 256 = _
  rw [mask]
  omega

theorem toNat_high (v : UInt64) : (v >>> 4).toNat = v.toNat / 16 := by
  rw [UInt64.toNat_shiftRight]
  exact Nat.shiftRight_eq_div_pow v.toNat 4

theorem high_or_low (v : UInt64) : v >>> 4 <<< 4 ||| (v &&& 0xF).toUInt8.toUInt64 = v := by
  apply UInt64.toNat_inj.mp
  have bound := v.toNat_lt
  have high : v.toNat >>> 4 <<< 4 = 16 * (v.toNat / 16) := by
    rw [Nat.shiftLeft_eq, Nat.shiftRight_eq_div_pow]
    omega
  rw [UInt64.toNat_or, UInt64.toNat_shiftLeft, UInt64.toNat_shiftRight, UInt8.toNat_toUInt64,
    toNat_low]
  change (v.toNat >>> 4) <<< 4 % word ||| v.toNat % 16 = v.toNat
  rw [word, Nat.mod_eq_of_lt (by omega),
    ← Nat.shiftLeft_add_eq_or_of_lt (Nat.mod_lt _ (by decide)), high]
  omega

theorem rspChrToHex_rspHexToChr {d : UInt8} (digit : d.toNat < 16) :
    rspChrToHex (rspHexToChr d) = .ok d := by
  have all : ∀ i : Fin 16, rspChrToHex (rspHexToChr (UInt8.ofNat i)) = .ok (UInt8.ofNat i) := by
    decide
  have own := all ⟨d.toNat, digit⟩
  rwa [UInt8.ofNat_toNat] at own

def IsDigit (c : UInt8) : Prop := ∃ d : UInt8, d.toNat < 16 ∧ c = rspHexToChr d

theorem IsDigit.separates (digit : IsDigit c) : c ≠ dot ∧ c ≠ semicolon ∧ c ≠ minus ∧ c ≠ 0 := by
  obtain ⟨d, small, rfl⟩ := digit
  have all : ∀ i : Fin 16, rspHexToChr (UInt8.ofNat i) ≠ dot ∧
      rspHexToChr (UInt8.ofNat i) ≠ semicolon ∧ rspHexToChr (UInt8.ofNat i) ≠ minus ∧
      rspHexToChr (UInt8.ofNat i) ≠ 0 := by
    decide
  have own := all ⟨d.toNat, small⟩
  rwa [UInt8.ofNat_toNat] at own

end Digits

section Text

theorem hexLoop_length (k : Nat) (v : UInt64) (str : List UInt8) :
    (hexLoop k v str).1.length = k + str.length := by
  induction k generalizing v str with
  | zero => exact (Nat.zero_add _).symm
  | succ k ih =>
      rw [hexLoop, ih, List.length_cons]
      omega

theorem hexLoop_digits (k : Nat) (v : UInt64) (str : List UInt8) :
    ∀ c ∈ (hexLoop k v str).1, IsDigit c ∨ c ∈ str := by
  induction k generalizing v str with
  | zero =>
      intro c member
      exact .inr member
  | succ k ih =>
      intro c member
      rw [hexLoop] at member
      rcases ih _ _ c member with digit | inside
      · exact .inl digit
      · rcases List.mem_cons.mp inside with rfl | old
        · left
          refine ⟨_, ?_, rfl⟩
          rw [toNat_low]
          exact Nat.mod_lt _ (by decide)
        · exact .inr old

theorem high_lt (bound : v.toNat < 16 ^ (k + 1)) : (v >>> 4).toNat < 16 ^ k := by
  rw [toNat_high, Nat.div_lt_iff_lt_mul (by decide), ← Nat.pow_succ]
  exact bound

theorem hexLoop_left (bound : v.toNat < 16 ^ k) (str : List UInt8) : (hexLoop k v str).2 = 0 := by
  induction k generalizing v str with
  | zero => exact UInt64.toNat_inj.mp (Nat.lt_one_iff.mp bound)
  | succ k ih =>
      rw [hexLoop]
      exact ih (high_lt bound) _

theorem strLoop_hexLoop (bound : v.toNat < 16 ^ k) (str : List UInt8) :
    strLoop 0 (hexLoop k v str).1 = strLoop v str := by
  induction k generalizing v str with
  | zero =>
      have zero : v = 0 := UInt64.toNat_inj.mp (Nat.lt_one_iff.mp bound)
      rw [zero, hexLoop]
  | succ k ih =>
      have digit : (v &&& 0xF).toUInt8.toNat < 16 := by
        rw [toNat_low]
        exact Nat.mod_lt _ (by decide)
      rw [hexLoop, ih (high_lt bound), strLoop, rspChrToHex_rspHexToChr digit, ok_bind, high_or_low]

end Text

section Length

theorem log_sixteen {n : Nat} (some : n ≠ 0) : Nat.log 16 n = n.log2 / 4 := by
  have low := Nat.log2_self_le some
  have high : n < 2 ^ (n.log2 + 1) := Nat.lt_log2_self
  apply Nat.log_eq_of_pow_le_of_lt_pow
  · calc 16 ^ (n.log2 / 4) = 2 ^ (4 * (n.log2 / 4)) := by rw [Nat.pow_mul]
      _ ≤ 2 ^ n.log2 := Nat.pow_le_pow_right Nat.two_pos (by omega)
      _ ≤ n := low
  · calc n < 2 ^ (n.log2 + 1) := high
      _ ≤ 2 ^ (4 * (n.log2 / 4 + 1)) := Nat.pow_le_pow_right Nat.two_pos (by omega)
      _ = 16 ^ (n.log2 / 4 + 1) := by rw [Nat.pow_mul]

theorem chrLength_eq (v : UInt64) : chrLength v = hexDigits v.toNat := by
  rw [chrLength, hexDigits]
  by_cases zero : v = 0
  · rw [zero]
    simp
  · have some : v.toNat ≠ 0 := fun same => zero (UInt64.toNat_inj.mp same)
    have bits : v.toNat.log2 < 64 := (Nat.log2_lt some).mpr v.toNat_lt
    rw [if_neg zero, log_sixteen some, clz]
    split <;> omega

theorem lt_pow_hexDigits (n : Nat) (enough : hexDigits n ≤ k) : n < 16 ^ k := by
  calc n < 16 ^ hexDigits n := Nat.lt_pow_succ_log_self (by decide) n
    _ ≤ 16 ^ k := Nat.pow_le_pow_right (by decide) enough

end Length

section Words

theorem rspHexToStr_eq (v : UInt64) (width : w = 0 ∨ hexDigits v.toNat ≤ w) :
    rspHexToStr v w = .ok (hexLoop (max w (hexDigits v.toNat)) v []).1 := by
  have enough : w > 0 → chrLength v ≤ w := by
    rw [chrLength_eq]
    omega
  have length : (if w > 0 then w else chrLength v) = max w (hexDigits v.toNat) := by
    rw [chrLength_eq]
    split <;> omega
  have left := hexLoop_left (lt_pow_hexDigits v.toNat (Nat.le_max_right w _)) []
  rw [rspHexToStr, decide_eq_true enough, check_true, ok_bind, length]
  simp only [decide_eq_true left, check_true, ok_bind]

theorem rspStrToHex_hexLoop (enough : hexDigits v.toNat ≤ k) :
    rspStrToHex (hexLoop k v []).1 = .ok v :=
  strLoop_hexLoop (lt_pow_hexDigits v.toNat enough) []

theorem rspHexToStr_zero (v : UInt64) : rspHexToStr v 0 = .ok (hexString v) := by
  rw [rspHexToStr_eq v (.inl rfl), Nat.zero_max, ← chrLength_eq, hexString]

theorem rspStrToHex_hexString (v : UInt64) : rspStrToHex (hexString v) = .ok v :=
  rspStrToHex_hexLoop (chrLength_eq v).ge

theorem hexString_digits (v : UInt64) : ∀ c ∈ hexString v, IsDigit c := by
  intro c member
  exact (hexLoop_digits _ _ _ c member).resolve_right List.not_mem_nil

theorem hexString_length (v : UInt64) : 1 ≤ (hexString v).length := by
  rw [hexString, hexLoop_length, chrLength_eq, hexDigits]
  omega

end Words

section Separators

theorem strchr_found (absent : ∀ c ∈ front, c ≠ chr ∧ c ≠ 0) :
    strchr chr (front ++ chr :: tail) = some front.length := by
  induction front with
  | nil => exact if_pos rfl
  | cons c front ih =>
      have own := absent c List.mem_cons_self
      rw [List.cons_append, strchr, if_neg own.1, if_neg own.2,
        ih fun c member => absent c (List.mem_cons_of_mem _ member)]
      rfl

theorem strchr_none (real : chr ≠ 0) (absent : ∀ c ∈ front, c ≠ chr ∧ c ≠ 0) :
    strchr chr (front ++ 0 :: memory) = none := by
  induction front with
  | nil => rw [List.nil_append, strchr, if_neg real.symm, if_pos rfl]
  | cons c front ih =>
      have own := absent c List.mem_cons_self
      rw [List.cons_append, strchr, if_neg own.1, if_neg own.2,
        ih fun c member => absent c (List.mem_cons_of_mem _ member)]
      rfl

/-- The text of a thread id ends the message or a semicolon is behind it. -/
def Ends (tail : List UInt8) : Prop := tail = [] ∨ ∃ text, tail = semicolon :: text

theorem extractLen_eq (absent : ∀ c ∈ front, c ≠ semicolon ∧ c ≠ 0) (ends : Ends tail)
    (memory : List UInt8) :
    (strchr semicolon (front ++ (tail ++ 0 :: memory))).getD (front ++ tail).length =
      front.length := by
  rcases ends with rfl | ⟨text, rfl⟩
  · rw [List.nil_append, strchr_none (by decide) absent, List.append_nil]
    rfl
  · rw [List.cons_append, strchr_found absent]
    rfl

end Separators

section ThreadIds

theorem toTaskId_ofInt {x : Int} (low : 0 ≤ x) (high : x ≤ int32Max) :
    toTaskId (UInt64.ofInt x) = .ok x := by
  have value : (UInt64.ofInt x).toNat = x.toNat := by
    rw [int32Max] at high
    rw [UInt64.ofInt, UInt64.toNat_ofNat']
    omega
  have small : (UInt64.ofInt x).toNat ≤ int32Max := by omega
  rw [toTaskId, decide_eq_true small, check_true, ok_bind, value, Int.toNat_of_nonneg low]

theorem rspExtractThreadId_eq {pidStr tidStr : List UInt8} (pidDigits : ∀ c ∈ pidStr, IsDigit c)
    (tidText : ∀ c ∈ tidStr, c ≠ semicolon ∧ c ≠ 0) (pidSome : 1 ≤ pidStr.length)
    (tidSome : 1 ≤ tidStr.length) (ends : Ends tail) (memory : List UInt8) :
    rspExtractThreadId (pidStr ++ dot :: tidStr ++ (tail ++ 0 :: memory))
        (pidStr ++ dot :: tidStr ++ tail).length =
      extractFields (pidStr ++ dot :: tidStr ++ (tail ++ 0 :: memory))
        (pidStr ++ dot :: tidStr).length pidStr.length := by
  have length : decide ((pidStr ++ dot :: tidStr ++ tail).length ≥ 3) = true := by
    simp only [List.length_append, List.length_cons, decide_eq_true_iff]
    omega
  have found : strchr dot (pidStr ++ dot :: tidStr ++ (tail ++ 0 :: memory)) =
      some pidStr.length := by
    rw [List.append_assoc, List.cons_append]
    exact strchr_found fun c member =>
      ⟨(pidDigits c member).separates.1, (pidDigits c member).separates.2.2.2⟩
  have text : ∀ c ∈ pidStr ++ dot :: tidStr, c ≠ semicolon ∧ c ≠ 0 := by
    intro c member
    rcases List.mem_append.mp member with inside | inside
    · exact ⟨(pidDigits c inside).separates.2.1, (pidDigits c inside).separates.2.2.2⟩
    · rcases List.mem_cons.mp inside with rfl | inside
      · decide
      · exact tidText c inside
  rw [rspExtractThreadId, length, check_true, ok_bind, found, extractLen_eq text ends]

theorem extractFields_eq (pidStr tidStr rest : List UInt8) :
    sub64 (sub64 (pidStr ++ dot :: tidStr).length pidStr.length) 1 = tidStr.length ∧
      (pidStr ++ dot :: tidStr ++ rest).take pidStr.length = pidStr ∧
      (pidStr ++ dot :: tidStr ++ rest).drop (pidStr.length + 1) = tidStr ++ rest := by
  refine ⟨?_, ?_, ?_⟩
  · have behind : (pidStr ++ dot :: tidStr).length = pidStr.length + (tidStr.length + 1) := by
      rw [List.length_append, List.length_cons]
    have first : sub64 (pidStr ++ dot :: tidStr).length pidStr.length = tidStr.length + 1 := by
      rw [behind, sub64, if_pos (Nat.le_add_right _ _), Nat.add_sub_cancel_left]
    rw [first, sub64, if_pos (Nat.le_add_left 1 _), Nat.add_sub_cancel]
  · simp
  · rw [List.append_assoc, List.drop_append, List.drop_eq_nil_of_le (by omega), List.nil_append,
      Nat.add_sub_cancel_left]
    rfl

variable {pid tid : Int}

theorem numbers_round_trip (pidLow : 0 ≤ pid) (pidHigh : pid ≤ int32Max) (tidLow : 0 ≤ tid)
    (tidHigh : tid ≤ int32Max) (ends : Ends tail) (memory : List UInt8) :
    ∃ text, rspConstructThreadId pid tid = .ok text ∧
      rspExtractThreadId (text ++ (tail ++ 0 :: memory)) (text ++ tail).length =
        .ok ⟨text.length, pid, tid⟩ := by
  have known : tid ≠ -1 := by omega
  refine ⟨hexString (UInt64.ofInt pid) ++ dot :: hexString (UInt64.ofInt tid), ?_, ?_⟩
  · rw [rspConstructThreadId, rspHexToStr_zero, ok_bind, if_neg known, rspHexToStr_zero, ok_bind]
  · have pidSome := hexString_length (UInt64.ofInt pid)
    have tidSome := hexString_length (UInt64.ofInt tid)
    have digits := hexString_digits (UInt64.ofInt tid)
    rw [rspExtractThreadId_eq (hexString_digits _)
      (fun c member => ⟨(digits c member).separates.2.1, (digits c member).separates.2.2.2⟩)
      pidSome tidSome ends]
    obtain ⟨tidLen, pidText, tidText⟩ := extractFields_eq (hexString (UInt64.ofInt pid))
      (hexString (UInt64.ofInt tid)) (tail ++ 0 :: memory)
    have first : ∃ c, readByte (hexString (UInt64.ofInt tid) ++ (tail ++ 0 :: memory)) 0 = .ok c ∧
        c ≠ minus := by
      obtain ⟨c, rest, text⟩ := List.exists_cons_of_length_pos tidSome
      rw [text] at digits ⊢
      exact ⟨c, rfl, (digits c List.mem_cons_self).separates.2.2.1⟩
    obtain ⟨c, read, digit⟩ := first
    have inside : (hexString (UInt64.ofInt tid)).length ≤
        (hexString (UInt64.ofInt tid) ++ (tail ++ 0 :: memory)).length := by
      rw [List.length_append]
      exact Nat.le_add_right _ _
    simp only [extractFields, tidLen, pidText, tidText, decide_eq_true pidSome,
      decide_eq_true tidSome, decide_eq_true inside, check_true, ok_bind, rspStrToHex_hexString,
      toTaskId_ofInt pidLow pidHigh, toTaskId_ofInt tidLow tidHigh, read, if_neg digit,
      List.take_left']

theorem all_threads_round_trip (pidLow : 0 ≤ pid) (pidHigh : pid ≤ int32Max) (ends : Ends tail)
    (memory : List UInt8) :
    ∃ text, rspConstructThreadId pid (-1) = .ok text ∧
      rspExtractThreadId (text ++ (tail ++ 0 :: memory)) (text ++ tail).length =
        .ok ⟨text.length, pid, -1⟩ := by
  refine ⟨hexString (UInt64.ofInt pid) ++ dot :: [minus, digitOne], ?_, ?_⟩
  · rw [rspConstructThreadId, rspHexToStr_zero, ok_bind, if_pos rfl]
  · have pidSome := hexString_length (UInt64.ofInt pid)
    have tidSome : 1 ≤ [minus, digitOne].length := by decide
    have plain : ∀ c ∈ [minus, digitOne], c ≠ semicolon ∧ c ≠ 0 := by
      intro c member
      rcases List.mem_pair.mp member with rfl | rfl <;> decide
    rw [rspExtractThreadId_eq (hexString_digits _) plain pidSome tidSome ends]
    obtain ⟨tidLen, pidText, tidText⟩ := extractFields_eq (hexString (UInt64.ofInt pid))
      [minus, digitOne] (tail ++ 0 :: memory)
    have first : readByte ([minus, digitOne] ++ (tail ++ 0 :: memory)) 0 = .ok minus := rfl
    have second : readByte ([minus, digitOne] ++ (tail ++ 0 :: memory)) 1 = .ok digitOne := rfl
    simp only [extractFields, tidLen, pidText, tidText, decide_eq_true pidSome,
      decide_eq_true tidSome, check_true, ok_bind, rspStrToHex_hexString,
      toTaskId_ofInt pidLow pidHigh, first, second, if_true, beq_self_eq_true]

end ThreadIds

/-- Words come back from their text, which has the width that is asked for, and thread ids from
theirs, also where more text is behind a semicolon. -/
theorem hex_and_thread_ids_round_trip :
    (∀ (v : UInt64) (w : Nat), w = 0 ∨ hexDigits v.toNat ≤ w →
      ∃ str, rspHexToStr v w = .ok str ∧ str.length = max w (hexDigits v.toNat) ∧
        rspStrToHex str = .ok v) ∧
    ∀ pid tid : Int, 0 ≤ pid → pid ≤ int32Max → (0 ≤ tid ∧ tid ≤ int32Max ∨ tid = -1) →
      ∀ tail memory, Ends tail → ∃ text, rspConstructThreadId pid tid = .ok text ∧
        rspExtractThreadId (text ++ (tail ++ 0 :: memory)) (text ++ tail).length =
          .ok ⟨text.length, pid, tid⟩ := by
  constructor
  · intro v w width
    refine ⟨_, rspHexToStr_eq v width, ?_, rspStrToHex_hexLoop (Nat.le_max_right w _)⟩
    rw [hexLoop_length, List.length_nil, Nat.add_zero]
  · rintro pid tid pidLow pidHigh (⟨tidLow, tidHigh⟩ | rfl) tail memory ends
    · exact numbers_round_trip pidLow pidHigh tidLow tidHigh ends memory
    · exact all_threads_round_trip pidLow pidHigh ends memory

theorem first_process_round_trip : ∃ text, rspConstructThreadId 1 (-1) = .ok text ∧
    rspExtractThreadId (text ++ ([semicolon, 0x63] ++ 0 :: [])) (text ++ [semicolon, 0x63]).length =
      .ok ⟨text.length, 1, -1⟩ := by
  apply hex_and_thread_ids_round_trip.2 1 (-1)
  · decide
  · decide
  · exact .inr rfl
  · exact .inr ⟨[0x63], rfl⟩

end Lotto.RspHex
