import Lotto.RspUtil
import Mathlib.Data.List.Basic

namespace Lotto.RspPackets

open Library.FaultRun RspUtil

def escapeByte (chr : UInt8) : List UInt8 :=
  if special chr then [brace, chr ^^^ 0x20] else [chr]

def escape (msg : List UInt8) : List UInt8 := msg.flatMap escapeByte

def sum (chkSum : UInt8) (bytes : List UInt8) : UInt8 := bytes.foldl (· + ·) chkSum

def packet (msg : List UInt8) : List UInt8 :=
  dollar :: escape msg ++ hashSign :: chkSumChrs (sum 0 (escape msg))

variable {msg rest tail : List UInt8} {chr : UInt8} {n left : Nat}

section Escape

theorem escape_cons (chr : UInt8) (msg : List UInt8) :
    escape (chr :: msg) = escapeByte chr ++ escape msg := List.flatMap_cons

theorem escapeByte_special (masked : special chr = true) :
    escapeByte chr = [brace, chr ^^^ 0x20] := if_pos masked

theorem escapeByte_plain (plain : special chr = false) : escapeByte chr = [chr] :=
  if_neg (by rw [plain]; exact Bool.false_ne_true)

theorem sum_append (chkSum : UInt8) (first second : List UInt8) :
    sum chkSum (first ++ second) = sum (sum chkSum first) second := List.foldl_append

theorem escapeLoop_eq (msg escaped : List UInt8) (chkSum : UInt8) :
    escapeLoop msg escaped chkSum = (escaped ++ escape msg, sum chkSum (escape msg)) := by
  induction msg generalizing escaped chkSum with
  | nil =>
      rw [escapeLoop, escape, List.flatMap_nil, List.append_nil]
      rfl
  | cons chr msg ih =>
      rw [escapeLoop, escape_cons, sum_append, ← List.append_assoc]
      cases plain : special chr with
      | true =>
          rw [if_pos rfl, ih, escapeByte_special plain]
          rfl
      | false =>
          rw [if_neg Bool.false_ne_true, ih, escapeByte_plain plain]
          rfl

theorem special_eq_false_iff :
    special chr = false ↔ chr ≠ hashSign ∧ chr ≠ dollar ∧ chr ≠ star ∧ chr ≠ brace := by
  simp only [special, Bool.or_eq_false_iff, beq_eq_false_iff_ne, and_assoc]

theorem hashSign_notMem_escape (msg : List UInt8) : hashSign ∉ escape msg := by
  intro member
  obtain ⟨chr, -, inside⟩ := List.mem_flatMap.mp member
  cases plain : special chr with
  | false =>
      rw [escapeByte_plain plain, List.mem_singleton] at inside
      exact (special_eq_false_iff.mp plain).1 inside.symm
  | true =>
      have masked : chr = hashSign ∨ chr = dollar ∨ chr = star ∨ chr = brace := by
        simpa [special, or_assoc] using plain
      rw [escapeByte_special plain] at inside
      rcases masked with rfl | rfl | rfl | rfl <;> revert inside <;> decide

theorem length_le_escape (msg : List UInt8) : msg.length ≤ (escape msg).length := by
  induction msg with
  | nil => exact Nat.le_refl _
  | cons chr msg ih =>
      rw [escape_cons, List.length_append, List.length_cons, escapeByte]
      split <;> simp only [List.length_cons, List.length_nil] <;> omega

theorem length_lt_escape (member : chr ∈ msg) (masked : special chr = true) :
    msg.length < (escape msg).length := by
  obtain ⟨before, behind, rfl⟩ := List.append_of_mem member
  have first := length_le_escape before
  have second := length_le_escape behind
  rw [escape, List.flatMap_append, ← escape, List.flatMap_cons, ← escape, escapeByte_special masked]
  simp only [List.length_append, List.length_cons, List.length_nil]
  omega

theorem escape_plain (plain : ∀ chr ∈ msg, special chr = false) : escape msg = msg := by
  induction msg with
  | nil => rfl
  | cons chr msg ih =>
      have first := plain chr List.mem_cons_self
      have others := ih fun c member => plain c (List.mem_cons_of_mem _ member)
      rw [escape_cons, others, escapeByte_plain first]
      rfl

end Escape

section Unescape

theorem mask_mask (chr : UInt8) : chr ^^^ 0x20 ^^^ 0x20 = chr := by
  rw [UInt8.xor_assoc, UInt8.xor_self, UInt8.xor_zero]

theorem unescapeLoop_end (left : Nat) (u : Unescaped) :
    unescapeLoop (hashSign :: tail) left u = .ok u := by
  cases left with
  | zero => exact unescapeLoop.eq_1 _ u
  | succ left =>
      have differs : hashSign ≠ brace := by decide
      cases tail <;> rw [unescapeLoop, if_neg differs, if_pos rfl]

theorem unescapeLoop_masked (chr : UInt8) (left : Nat) (u : Unescaped) :
    unescapeLoop (brace :: chr :: tail) (left + 2) u =
      unescapeLoop tail left ⟨u.msg ++ [chr ^^^ 0x20], u.chkSum + brace + chr, u.encIdx + 2⟩ := by
  rw [unescapeLoop, if_pos rfl, Nat.add_sub_cancel]

theorem unescapeLoop_plain (plain : special chr = false) (left : Nat) (u : Unescaped) :
    unescapeLoop (chr :: tail) (left + 1) u =
      unescapeLoop tail left ⟨u.msg ++ [chr], u.chkSum + chr, u.encIdx + 1⟩ := by
  have differs := special_eq_false_iff.mp plain
  cases tail <;> rw [unescapeLoop, if_neg differs.2.2.2, if_neg differs.1]

/-- The loop gives the message back; it stops at the end character or where no byte is left. -/
theorem unescapeLoop_eq (msg : List UInt8) (enough : (escape msg).length ≤ left) (u : Unescaped) :
    unescapeLoop (escape msg ++ hashSign :: tail) left u =
      .ok ⟨u.msg ++ msg, sum u.chkSum (escape msg), u.encIdx + (escape msg).length⟩ := by
  induction msg generalizing left u with
  | nil =>
      have same : u = ⟨u.msg ++ [], sum u.chkSum (escape []), u.encIdx + (escape []).length⟩ := by
        rw [List.append_nil]
        rfl
      rw [← same]
      exact unescapeLoop_end left u
  | cons chr msg ih =>
      rw [escape_cons, List.length_append] at enough
      rw [escape_cons, List.length_append, sum_append, List.append_assoc]
      cases plain : special chr with
      | true =>
          rw [escapeByte_special plain] at enough ⊢
          simp only [List.length_cons, List.length_nil] at enough
          obtain ⟨left, rfl⟩ := Nat.exists_eq_add_of_le' (Nat.le_trans (Nat.le_add_right 2 _) enough)
          rw [List.cons_append, List.cons_append, List.nil_append, unescapeLoop_masked, mask_mask,
            ih (by omega)]
          simp [sum, Nat.add_assoc]
      | false =>
          rw [escapeByte_plain plain] at enough ⊢
          simp only [List.length_cons, List.length_nil] at enough
          obtain ⟨left, rfl⟩ := Nat.exists_eq_add_of_le' (Nat.le_trans (Nat.le_add_right 1 _) enough)
          rw [List.cons_append, List.nil_append, unescapeLoop_plain plain, ih (by omega)]
          simp [sum, Nat.add_assoc]

end Unescape

section Packets

theorem rspConstructPkt_eq (some : msg ≠ []) : rspConstructPkt msg = .ok (packet msg) := by
  have positive : 0 < msg.length := List.length_pos_iff.mpr some
  have escaped := Nat.lt_of_lt_of_le positive (length_le_escape msg)
  rw [rspConstructPkt, rspEscapeMsg, escapeLoop_eq, List.nil_append]
  simp only [decide_eq_true positive, decide_eq_true escaped, check_true, ok_bind]
  rfl

theorem packet_length (msg : List UInt8) : (packet msg).length = (escape msg).length + 4 := by
  simp [packet, chkSumChrs]

theorem packet_not_empty (some : msg ≠ []) (rest : List UInt8) :
    (packet msg ++ rest).take 4 ≠ [dollar, hashSign, 0x30, 0x30] := by
  intro same
  obtain ⟨chr, msg, rfl⟩ := List.exists_cons_of_ne_nil some
  have absent := hashSign_notMem_escape (chr :: msg)
  rw [packet, escape_cons] at same
  rw [escape_cons] at absent
  apply absent
  cases plain : special chr with
  | true =>
      rw [escapeByte_special plain] at same
      simp at same
      exact absurd same.1 (by decide)
  | false =>
      rw [escapeByte_plain plain] at same ⊢
      simp at same
      rw [same.1]
      exact List.mem_cons_self

theorem rspExtractPkt_eq (some : msg ≠ []) (rest : List UInt8) (n : Nat) :
    rspExtractPkt (packet msg ++ rest) ((packet msg).length + n) =
      extractEnd (packet msg ++ rest) ((packet msg).length + n)
        ⟨msg, sum 0 (escape msg), (escape msg).length⟩ := by
  have positive : 0 < msg.length := List.length_pos_iff.mpr some
  have escaped := Nat.lt_of_lt_of_le positive (length_le_escape msg)
  have whole : decide ((packet msg).length + n > 0) = true := by
    rw [packet_length]
    exact decide_eq_true (by omega)
  have start : readByte (packet msg ++ rest) 0 = .ok dollar := rfl
  have left : sub64 ((packet msg).length + n) 4 = (escape msg).length + n := by
    rw [packet_length, sub64, if_pos (by omega)]
    omega
  have text : (packet msg ++ rest).drop 1 =
      escape msg ++ hashSign :: (chkSumChrs (sum 0 (escape msg)) ++ rest) := by
    simp [packet]
  rw [rspExtractPkt, whole, check_true, ok_bind, start, ok_bind, if_neg (packet_not_empty some rest),
    left, text, rspUnescapeMsg, decide_eq_true (by omega), check_true, ok_bind,
    unescapeLoop_eq msg (by omega)]
  simp only [List.nil_append, Nat.zero_add, ok_bind, decide_eq_true positive, check_true]
  rfl

theorem extractEnd_plain (plain : ∀ chr ∈ msg, special chr = false) (rest : List UInt8)
    (pktLen : Nat) :
    extractEnd (packet msg ++ rest) pktLen ⟨msg, sum 0 (escape msg), (escape msg).length⟩ =
      .ok ⟨msg.length, msg, (packet msg).length⟩ := by
  have text : packet msg ++ rest =
      (dollar :: msg) ++ (hashSign :: chkSumChrs (sum 0 msg) ++ rest) := by
    rw [packet, escape_plain plain]
    simp
  have read (i : Nat) : readByte (packet msg ++ rest) (1 + msg.length + i) =
      readByte (hashSign :: chkSumChrs (sum 0 msg) ++ rest) i := by
    rw [text, readByte, readByte, List.getElem?_append_right (by simp; omega)]
    congr 2
    simp
    omega
  have last : readByte (packet msg ++ rest) (1 + msg.length) = .ok hashSign := read 0
  have first : readByte (packet msg ++ rest) (1 + msg.length + 1) =
      .ok (rspHexToChr (sum 0 msg >>> 4)) := read 1
  have second : readByte (packet msg ++ rest) (1 + msg.length + 2) =
      .ok (rspHexToChr (sum 0 msg &&& 0xF)) := read 2
  rw [packet_length, escape_plain plain, extractEnd, last, ok_bind, if_neg (not_not.mpr rfl), first,
    ok_bind, second, beq_self_eq_true, check_true, ok_bind, ok_bind, beq_self_eq_true, check_true,
    ok_bind, Nat.add_comm 1, Nat.add_assoc]

theorem extractEnd_special (member : chr ∈ msg) (masked : special chr = true) (rest : List UInt8)
    (pktLen : Nat) :
    extractEnd (packet msg ++ rest) pktLen ⟨msg, sum 0 (escape msg), (escape msg).length⟩ =
      .ok ⟨pktExtrIncomplete, msg, pktLen⟩ := by
  have longer := length_lt_escape member masked
  have read : readByte (packet msg ++ rest) (1 + msg.length) = .ok (escape msg)[msg.length] := by
    rw [readByte, packet, Nat.add_comm]
    simp [List.getElem?_append, longer]
  have goesOn : (escape msg)[msg.length] ≠ hashSign := by
    intro same
    apply hashSign_notMem_escape msg
    rw [← same]
    exact List.getElem_mem longer
  rw [extractEnd, read, ok_bind, if_pos goesOn]

/-- The message comes back from its packet, with its length and the length of the packet. -/
def RoundTrip (msg rest : List UInt8) (n : Nat) : Prop :=
  ∃ pkt, rspConstructPkt msg = .ok pkt ∧
    rspExtractPkt (pkt ++ rest) (pkt.length + n) = .ok ⟨msg.length, msg, pkt.length⟩

/-- A message survives if and only if none of its bytes is escaped. -/
theorem round_trip_iff (some : msg ≠ []) (rest : List UInt8) (n : Nat) :
    RoundTrip msg rest n ↔ ∀ chr ∈ msg, special chr = false := by
  constructor
  · rintro ⟨pkt, built, extracted⟩ chr member
    rw [rspConstructPkt_eq some] at built
    cases built
    rw [rspExtractPkt_eq some] at extracted
    cases masked : special chr with
    | false => rfl
    | true =>
        rw [extractEnd_special member masked] at extracted
        cases extracted
  · intro plain
    refine ⟨packet msg, rspConstructPkt_eq some, ?_⟩
    rw [rspExtractPkt_eq some, extractEnd_plain plain]

theorem ok_survives : RoundTrip [0x4F, 0x4B] [0x24] 1 := by
  apply (round_trip_iff (by decide) [0x24] 1).mpr
  intro chr member
  rcases List.mem_pair.mp member with rfl | rfl <;> rfl

theorem star_lost : [0x61, star] ≠ [] ∧ ¬RoundTrip [0x61, star] [] 0 := by
  refine ⟨by decide, ?_⟩
  rintro ⟨pkt, built, extracted⟩
  cases built
  revert extracted
  decide

end Packets

end Lotto.RspPackets
