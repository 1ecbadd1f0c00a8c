import Mathlib.Data.Fintype.Card
import Mathlib.Data.List.Forall2
import Lotto.Statemgr

namespace Lotto.StatemgrFormat

open Library.ByteCodec Library.FaultRun

variable {V : Type}

/-- A marshable whose functions obey their round trip, whatever value they restore into. -/
structure Lawful (m : Marshable V) : Prop where
  size : ∃ size, m.size = some size ∧ ∀ v, (m.marshal v).length = size v
  roundTrip : ∀ v current tail, m.unmarshal current (m.marshal v ++ tail) = some (v, tail)

/-- A registered slot: at least one struct, all of them lawful, and a payload that fits in a
size_t. -/
structure Sound (entry : Entry V) : Prop where
  registered : entry.chain ≠ []
  lawful : ∀ node ∈ entry.chain, Lawful node.m
  bounded : (marshableMarshal entry.chain).length < 2 ^ 64

structure Agrees (w r : Entry V) : Prop where
  slot : r.slot = w.slot
  functions : List.Forall₂ (fun a b => b.m = a.m) w.chain r.chain

def slots (mgr : StateGroup V) : List (Fin maxSlots) := mgr.map Entry.slot

def headerOf (i : Nat) (w : Entry V) : Header :=
  { index := i, size := (marshableMarshal w.chain).length, empty := false, slot := w.slot }

@[simp] theorem headerMarshal_length (h : Header) : (headerMarshal h).length = headerSize := by
  simp [headerMarshal, headerSize]

@[simp] theorem addHeader_append (h : Header) (tail : List UInt8) :
    addHeader (headerMarshal h ++ tail) = tail := by
  rw [addHeader, ← headerMarshal_length h, List.drop_left]

theorem headerUnmarshal_headerMarshal {h : Header} (index : h.index < 2 ^ 64)
    (size : h.size < 2 ^ 64) (slot : h.slot < 2 ^ 32) (tail : List UInt8) :
    headerUnmarshal (headerMarshal h ++ tail) = .ok h := by
  have flag : h.empty.toNat < 256 ^ 1 := by cases h.empty <;> decide
  have fields : headerFields (headerMarshal h ++ tail) = some (canary, h) := by
    simp only [headerFields, headerMarshal, List.append_assoc]
    rw [bind_takeLE (by decide), bind_takeLE (by simpa using index), bind_takeLE (by simpa using size),
      bind_takeLE flag, bind_takeLE (by decide), bind_takeLE (by simpa using slot)]
    cases h with
    | mk index size empty slot => cases empty <;> rfl
  simp [headerUnmarshal, fields]

theorem headerUnmarshal_nil : headerUnmarshal [] = .error .headerOutOfBounds := rfl

theorem headerOf_unmarshal {i : Nat} {w : Entry V} (sound : Sound w) (index : i < 2 ^ 64)
    (tail : List UInt8) :
    headerUnmarshal (headerMarshal (headerOf i w) ++ tail) = .ok (headerOf i w) := by
  have slot : (w.slot : Nat) < 2 ^ 32 := Nat.lt_trans w.slot.isLt (by decide)
  exact headerUnmarshal_headerMarshal index sound.bounded slot tail

theorem isMarshaled_of_sound {w : Entry V} (sound : Sound w) : isMarshaled w = true := by
  cases chain : w.chain with
  | nil => exact absurd chain sound.registered
  | cons node next =>
      have lawful := sound.lawful node (by simp [chain])
      obtain ⟨size, found, _⟩ := lawful.size
      simp [isMarshaled, chain, found]

theorem marshalFrom_cons {w : Entry V} (sound : Sound w) (i : Nat) (ws : StateGroup V) :
    statemgrMarshalFrom i (w :: ws) =
      headerMarshal (headerOf i w) ++ (marshableMarshal w.chain ++ statemgrMarshalFrom (i + 1) ws) := by
  simp [statemgrMarshalFrom, isMarshaled_of_sound sound, headerOf]

theorem marshableSize_lawful {chain : List (Node V)} (lawful : ∀ node ∈ chain, Lawful node.m) :
    marshableSize chain = .ok (marshableMarshal chain).length := by
  induction chain with
  | nil => rfl
  | cons node next ih =>
      obtain ⟨size, found, exact⟩ := (lawful node List.mem_cons_self).size
      have tail := ih (fun later member => lawful later (List.mem_cons_of_mem _ member))
      simp [marshableSize, found, tail, marshableMarshal, exact]

theorem statemgrSize_eq {ws : StateGroup V} (sound : ∀ w ∈ ws, Sound w) (i : Nat) :
    statemgrSize ws = .ok (statemgrMarshalFrom i ws).length := by
  induction ws generalizing i with
  | nil => rfl
  | cons w ws ih =>
      have good := sound w List.mem_cons_self
      have tail := ih (fun later member => sound later (List.mem_cons_of_mem _ member)) (i + 1)
      rw [marshalFrom_cons good]
      simp only [statemgrSize, isMarshaled_of_sound good, if_true, marshableSize_lawful good.lawful,
        tail, ok_bind, List.length_append, headerMarshal_length, Except.ok.injEq]
      omega

theorem unmarshal_chain {ws rs : List (Node V)} (functions : List.Forall₂ (fun a b => b.m = a.m) ws rs)
    (lawful : ∀ node ∈ ws, Lawful node.m) (tail : List UInt8) :
    marshableUnmarshal rs (marshableMarshal ws ++ tail) = .ok (ws, tail) := by
  induction functions with
  | nil => rfl
  | @cons w r ws rs same _ ih =>
      have next := ih (fun later member => lawful later (List.mem_cons_of_mem _ member))
      have first := (lawful w List.mem_cons_self).roundTrip w.value r.value
        (marshableMarshal ws ++ tail)
      have split : marshableMarshal (w :: ws) ++ tail =
          w.m.marshal w.value ++ (marshableMarshal ws ++ tail) := by simp [marshableMarshal]
      rw [split]
      simp only [marshableUnmarshal, same, first, next, ok_bind]

/-- The record has room for `n` more bytes; `_statemgr_unmarshal` knows no end. -/
def Fits (left : Option Nat) (n : Nat) : Prop := left.all (n ≤ ·) = true

theorem Fits.not_end {left : Option Nat} (fits : Fits left headerSize) : left ≠ some 0 := by
  rintro rfl
  simp [Fits, headerSize] at fits

theorem scan_hit {buf : List UInt8} {left : Option Nat} (fits : Fits left headerSize) {h : Header}
    (header : headerUnmarshal buf = .ok h) (before : StateGroup V) (hit : Entry V)
    (behind : StateGroup V) (apart : ∀ r ∈ before, h.slot ≠ r.slot) (same : h.slot = hit.slot) :
    scanEntries buf left (before ++ hit :: behind) = .ok (some (h, before, hit, behind)) := by
  induction before with
  | nil => simp [scanEntries, fits.not_end, show left.all (headerSize ≤ ·) = true from fits, header, same]
  | cons r before ih =>
      have tail := ih (fun later member => apart later (List.mem_cons_of_mem _ member))
      simp [scanEntries, fits.not_end, show left.all (headerSize ≤ ·) = true from fits, header,
        apart r List.mem_cons_self, tail]

theorem unmarshal_single {chain : List (Node V)} (registered : chain ≠ []) {h : Header}
    {slot : Fin maxSlots} (index : h.index = 0) (size : h.size < 2 ^ 64) (same : h.slot = slot)
    (bytes : List UInt8) :
    statemgrUnmarshal [{ chain, slot }] (headerMarshal h ++ bytes) = (do
      let (restored, next) ← marshableUnmarshal chain bytes
      check (bytes.length - next.length == h.size) .unmarshalSize
      .ok { mgr := [{ chain := restored, slot }], buf := next, left := none
            handed := [(slot, bytes.take (bytes.length - next.length))] }) := by
  have bound : h.slot < 2 ^ 32 := by
    rw [same]
    exact Nat.lt_trans slot.isLt (by decide)
  have header := headerUnmarshal_headerMarshal (by rw [index]; decide) size bound bytes
  have scan := scan_hit (show Fits none headerSize from rfl) header [] { chain, slot } [] (by simp) same
  have nonempty : (!chain.isEmpty) = true := by
    cases chain with
    | nil => exact absurd rfl registered
    | cons node chain => rfl
  rw [List.nil_append] at scan
  simp only [statemgrUnmarshal, List.length_singleton, decodeLoop, scan, ok_bind, decodeHit,
    nonempty, addHeader_append, Option.all_none, check_true, Option.map_none, List.nil_append]
  cases run : marshableUnmarshal chain bytes with
  | error fault => rfl
  | ok result =>
      simp only [ok_bind]
      cases fits : bytes.length - result.2.length == h.size <;> rfl

theorem scan_miss {buf : List UInt8} {h : Header} (header : headerUnmarshal buf = .ok h)
    (mgr : StateGroup V) (apart : ∀ r ∈ mgr, h.slot ≠ r.slot) :
    scanEntries buf none mgr = .ok none := by
  induction mgr with
  | nil => rfl
  | cons r mgr ih =>
      have tail := ih (fun later member => apart later (List.mem_cons_of_mem _ member))
      simp [scanEntries, header, apart r List.mem_cons_self, tail]

def setChain (w : Entry V) (mgr : StateGroup V) : StateGroup V :=
  mgr.map fun r => if r.slot = w.slot then { r with chain := w.chain } else r

theorem slots_setChain (w : Entry V) (mgr : StateGroup V) : slots (setChain w mgr) = slots mgr := by
  simp only [slots, setChain, List.map_map]
  refine List.map_congr_left fun r _ => ?_
  simp only [Function.comp_apply]
  split <;> rfl

theorem setChain_split {w hit : Entry V} {before behind : StateGroup V} (same : hit.slot = w.slot)
    (distinct : (slots (before ++ hit :: behind)).Nodup) :
    setChain w (before ++ hit :: behind) = before ++ { hit with chain := w.chain } :: behind := by
  have apart : ∀ r ∈ before ++ behind, r.slot ≠ w.slot := by
    have front : (slots (hit :: (before ++ behind))).Nodup :=
      (List.Perm.map Entry.slot List.perm_middle).nodup_iff.mp distinct
    intro r member equal
    refine (List.nodup_cons.mp front).1 ?_
    rw [same, ← equal]
    exact List.mem_map_of_mem member
  have keep : ∀ part : StateGroup V, (∀ r ∈ part, r ∈ before ++ behind) →
      part.map (fun r => if r.slot = w.slot then { r with chain := w.chain } else r) = part := by
    intro part inside
    conv_rhs => rw [← List.map_id part]
    refine List.map_congr_left fun r member => ?_
    simp [apart r (inside r member)]
  rw [setChain, List.map_append, List.map_cons, keep before (by simp +contextual),
    keep behind (by simp +contextual), if_pos same]

def advance (left : Option Nat) (w : Entry V) : Option Nat :=
  left.map (· - (headerSize + (marshableMarshal w.chain).length))

theorem decodeLoop_hit {w : Entry V} (sound : Sound w) {i : Nat} (index : i < 2 ^ 64) {r : Entry V}
    {d : Decoder V} (member : r ∈ d.mgr) (agrees : Agrees w r) (distinct : (slots d.mgr).Nodup)
    {rest : List UInt8}
    (bytes : d.buf = headerMarshal (headerOf i w) ++ (marshableMarshal w.chain ++ rest))
    (fits : Fits d.left (headerSize + (marshableMarshal w.chain).length)) (hits : Nat) :
    decodeLoop (hits + 1) d = decodeLoop hits
      { mgr := setChain w d.mgr, buf := rest, left := advance d.left w
        handed := d.handed ++ [(w.slot, marshableMarshal w.chain)] } := by
  obtain ⟨before, behind, split⟩ := List.append_of_mem member
  have parts : (slots (before ++ r :: behind)).Nodup := split ▸ distinct
  have same : r.slot = w.slot := agrees.slot
  have apart : ∀ other ∈ before, (headerOf i w).slot ≠ other.slot := by
    intro other inBefore equal
    have clash : other.slot = r.slot := by
      rw [same]
      exact Fin.ext equal.symm
    rw [slots, List.map_append, List.map_cons] at parts
    exact (List.nodup_append.mp parts).2.2 other.slot (List.mem_map_of_mem inBefore) r.slot
      List.mem_cons_self clash
  have room : Fits d.left headerSize := by
    cases left : d.left with
    | none => rfl
    | some n =>
        have bound : headerSize + (marshableMarshal w.chain).length ≤ n := by
          simpa [Fits, left] using fits
        simp only [Fits, Option.all_some, decide_eq_true_eq]
        omega
  have header := headerOf_unmarshal sound index (marshableMarshal w.chain ++ rest)
  have scan : scanEntries d.buf d.left d.mgr = .ok (some (headerOf i w, before, r, behind)) := by
    rw [bytes, split]
    exact scan_hit room header before r behind apart (congrArg Fin.val same.symm)
  have registered : (!r.chain.isEmpty) = true := by
    cases chain : r.chain with
    | nil =>
        have functions := agrees.functions
        rw [chain, List.forall₂_nil_right_iff] at functions
        exact absurd functions sound.registered
    | cons node next => rfl
  have payload := unmarshal_chain agrees.functions sound.lawful rest
  have used : (marshableMarshal w.chain ++ rest).length - rest.length =
      (marshableMarshal w.chain).length := by simp
  have full : d.left.all (headerSize + (marshableMarshal w.chain).length ≤ ·) = true := fits
  have step : decodeHit d (headerOf i w) before r behind = .ok
      { mgr := setChain w d.mgr, buf := rest, left := advance d.left w
        handed := d.handed ++ [(w.slot, marshableMarshal w.chain)] } := by
    rw [split, setChain_split same parts]
    simp only [decodeHit, registered, bytes, addHeader_append, payload, used, full, headerOf,
      beq_self_eq_true, check_true, ok_bind, List.take_left, advance, same]
  simp only [decodeLoop, scan, ok_bind, step]

def Covers (mgr ws : StateGroup V) : Prop := ∀ w ∈ ws, ∃ r ∈ mgr, Agrees w r

theorem covers_setChain {w : Entry V} {mgr ws : StateGroup V} (covers : Covers mgr (w :: ws))
    (distinct : (slots (w :: ws)).Nodup) : Covers (setChain w mgr) ws := by
  intro later member
  obtain ⟨r, inside, agrees⟩ := covers later (List.mem_cons_of_mem _ member)
  have apart : r.slot ≠ w.slot := by
    intro same
    refine (List.nodup_cons.mp distinct).1 ?_
    rw [← same, agrees.slot]
    exact List.mem_map_of_mem member
  exact ⟨r, List.mem_map.mpr ⟨r, inside, by simp [apart]⟩, agrees⟩

/-- What a decoder did to the group: each slot of the writer has the writer's values, every
other slot is as it was. -/
def Restores (ws rs rs' : StateGroup V) : Prop :=
  List.Forall₂ (fun r r' => r'.slot = r.slot ∧ (∀ w ∈ ws, w.slot = r.slot → r'.chain = w.chain) ∧
    ((∀ w ∈ ws, w.slot ≠ r.slot) → r' = r)) rs rs'

theorem restores_cons {w : Entry V} {ws rs rs' : StateGroup V}
    (distinct : (slots (w :: ws)).Nodup) (tail : Restores ws (setChain w rs) rs') :
    Restores (w :: ws) rs rs' := by
  have apart : ∀ later ∈ ws, later.slot ≠ w.slot := by
    intro later member same
    exact (List.nodup_cons.mp distinct).1 (same ▸ List.mem_map_of_mem member)
  rw [Restores, setChain, List.forall₂_map_left_iff] at tail
  refine tail.imp ?_
  rintro r r' ⟨slot, restored, untouched⟩
  by_cases same : r.slot = w.slot
  · simp only [if_pos same] at slot restored untouched
    refine ⟨slot, ?_, fun other => absurd same.symm (other w List.mem_cons_self)⟩
    intro owner member equal
    rcases List.mem_cons.mp member with rfl | inTail
    · rw [untouched (fun later inside => by rw [same]; exact apart later inside)]
    · exact absurd (equal.trans same) (apart owner inTail)
  · simp only [if_neg same] at slot restored untouched
    refine ⟨slot, ?_, fun other => untouched fun later inside =>
      other later (List.mem_cons_of_mem _ inside)⟩
    intro owner member equal
    rcases List.mem_cons.mp member with rfl | inTail
    · exact absurd equal.symm same
    · exact restored owner inTail equal

theorem restores_nil (rs : StateGroup V) : Restores [] rs rs := by
  rw [Restores, List.forall₂_same]
  intro r _
  exact ⟨rfl, by simp, fun _ => rfl⟩

/-- The group after the payloads of all the entries `ws` were handed to their slots. -/
def restoreAll (ws mgr : StateGroup V) : StateGroup V := ws.foldl (fun mgr w => setChain w mgr) mgr

theorem restores_restoreAll {ws : StateGroup V} (distinct : (slots ws).Nodup) (rs : StateGroup V) :
    Restores ws rs (restoreAll ws rs) := by
  induction ws generalizing rs with
  | nil => exact restores_nil rs
  | cons w ws ih => exact restores_cons distinct (ih (List.nodup_cons.mp distinct).2 (setChain w rs))

/-- The decoders over a buffer whose slots are all registered: one hit for each entry of the
writer, in its order, and the memory behind the buffer is not touched. -/
theorem decodeLoop_covered {ws : StateGroup V} (sound : ∀ w ∈ ws, Sound w)
    (distinct : (slots ws).Nodup) {i : Nat} (index : i + ws.length ≤ 2 ^ 64) (tail : List UInt8)
    {d : Decoder V} (separate : (slots d.mgr).Nodup) (covers : Covers d.mgr ws)
    (bytes : d.buf = statemgrMarshalFrom i ws ++ tail)
    (fits : d.left = none ∨ d.left = some (statemgrMarshalFrom i ws).length) :
    decodeLoop ws.length d = .ok
      { mgr := restoreAll ws d.mgr, buf := tail, left := d.left.map fun _ => 0
        handed := d.handed ++ ws.map fun w => (w.slot, marshableMarshal w.chain) } := by
  induction ws generalizing i d with
  | nil =>
      have left : (d.left.map fun _ => 0) = d.left := by
        rcases fits with none | some
        · simp [none]
        · simp [some, statemgrMarshalFrom]
      have buf : tail = d.buf := by simpa [statemgrMarshalFrom] using bytes.symm
      rw [left, buf, List.map_nil, List.append_nil]
      rfl
  | cons w ws ih =>
      have good := sound w List.mem_cons_self
      obtain ⟨r, inside, agrees⟩ := covers w List.mem_cons_self
      rw [marshalFrom_cons good, List.append_assoc, List.append_assoc] at bytes
      have length : (statemgrMarshalFrom i (w :: ws)).length = headerSize +
          (marshableMarshal w.chain).length + (statemgrMarshalFrom (i + 1) ws).length := by
        rw [marshalFrom_cons good]
        simp only [List.length_append, headerMarshal_length]
        omega
      have room : Fits d.left (headerSize + (marshableMarshal w.chain).length) := by
        rcases fits with left | left
        · simp [Fits, left]
        · simp only [Fits, left, Option.all_some, decide_eq_true_eq]
          omega
      have bound : i < 2 ^ 64 := by
        simp only [List.length_cons] at index
        omega
      have left : advance d.left w = none ∨
          advance d.left w = some (statemgrMarshalFrom (i + 1) ws).length := by
        rcases fits with left | left
        · exact Or.inl (by simp [advance, left])
        · right
          simp only [advance, left, Option.map_some, Option.some.injEq]
          omega
      have step := decodeLoop_hit good bound inside agrees separate bytes room ws.length
      have run := ih (i := i + 1)
        (d := { mgr := setChain w d.mgr, buf := statemgrMarshalFrom (i + 1) ws ++ tail
                left := advance d.left w
                handed := d.handed ++ [(w.slot, marshableMarshal w.chain)] })
        (fun later member => sound later (List.mem_cons_of_mem _ member))
        (List.nodup_cons.mp distinct).2 (by simp only [List.length_cons] at index; omega)
        (by rw [slots_setChain]; exact separate) (covers_setChain covers distinct) rfl left
      rw [List.length_cons, step, run]
      cases d.left <;> simp [advance, restoreAll]

def Compatible (mgr ws : StateGroup V) : Prop := ∀ w ∈ ws, ∀ r ∈ mgr, r.slot = w.slot → Agrees w r

theorem compatible_setChain {w : Entry V} {mgr ws : StateGroup V}
    (compatible : Compatible mgr (w :: ws)) (distinct : (slots (w :: ws)).Nodup) :
    Compatible (setChain w mgr) ws := by
  intro later inLater r member same
  have apart : later.slot ≠ w.slot := by
    intro equal
    exact (List.nodup_cons.mp distinct).1 (equal ▸ List.mem_map_of_mem inLater)
  obtain ⟨old, inside, rfl⟩ := List.mem_map.mp member
  by_cases hit : old.slot = w.slot
  · simp only [if_pos hit] at same
    exact absurd (same.symm.trans hit) apart
  · simp only [if_neg hit] at same ⊢
    exact compatible later (List.mem_cons_of_mem _ inLater) old inside same

theorem exists_of_mem_slots {mgr : StateGroup V} {slot : Fin maxSlots} (member : slot ∈ slots mgr) :
    ∃ r ∈ mgr, r.slot = slot := List.mem_map.mp member

/-- When `_statemgr_unmarshal` ends at the end of the memory, it has read every slot of the
writer and its counter was used up. -/
theorem decodeLoop_consumes {ws : StateGroup V} (sound : ∀ w ∈ ws, Sound w)
    (distinct : (slots ws).Nodup) {i : Nat} (index : i + ws.length ≤ 2 ^ 64) {d d' : Decoder V}
    (separate : (slots d.mgr).Nodup) (compatible : Compatible d.mgr ws)
    (bytes : d.buf = statemgrMarshalFrom i ws) (left : d.left = none) {hits : Nat}
    (bound : hits ≤ d.mgr.length) (run : decodeLoop hits d = .ok d') (consumed : d'.buf = []) :
    (∀ w ∈ ws, w.slot ∈ slots d.mgr) ∧ hits = ws.length := by
  induction ws generalizing i d hits with
  | nil =>
      cases hits with
      | zero => exact ⟨by simp, rfl⟩
      | succ hits =>
          -- the loop goes on at the end of the buffer and reads a header that is not there
          cases mgr : d.mgr with
          | nil => simp [mgr] at bound
          | cons r rs =>
              have buf : d.buf = [] := bytes
              simp [decodeLoop, mgr, scanEntries, left, buf, headerUnmarshal_nil] at run
  | cons w ws ih =>
      have good := sound w List.mem_cons_self
      rw [marshalFrom_cons good] at bytes
      have written : d.buf ≠ [] := by
        intro empty
        have length := congrArg List.length (empty.symm.trans bytes)
        simp only [List.length_nil, List.length_append, headerMarshal_length, headerSize] at length
        omega
      have room : i < 2 ^ 64 := by
        simp only [List.length_cons] at index
        omega
      cases hits with
      | zero =>
          simp only [decodeLoop, Except.ok.injEq] at run
          exact absurd (run ▸ consumed) written
      | succ hits =>
          by_cases known : w.slot ∈ slots d.mgr
          · obtain ⟨r, inside, same⟩ := exists_of_mem_slots known
            have agrees := compatible w List.mem_cons_self r inside same
            rw [decodeLoop_hit good room inside agrees separate bytes (by simp [Fits, left])] at run
            have tail := ih (fun later member => sound later (List.mem_cons_of_mem _ member))
              (List.nodup_cons.mp distinct).2 (i := i + 1)
              (by simp only [List.length_cons] at index; omega)
              (by rw [slots_setChain]; exact separate) (compatible_setChain compatible distinct) rfl
              (by simp [advance, left]) (by simp only [setChain, List.length_map]; omega) run
            rw [slots_setChain] at tail
            refine ⟨?_, by rw [tail.2, List.length_cons]⟩
            intro later member
            rcases List.mem_cons.mp member with rfl | inTail
            · exact known
            · exact tail.1 later inTail
          · -- an unknown slot ends the loop in front of its header
            have header := headerOf_unmarshal good room
              (marshableMarshal w.chain ++ statemgrMarshalFrom (i + 1) ws)
            have miss := scan_miss header d.mgr (by
              intro r inside equal
              refine known (List.mem_map.mpr ⟨r, inside, ?_⟩)
              exact Fin.ext equal.symm)
            rw [← bytes, ← left] at miss
            simp only [decodeLoop, miss, ok_bind, Except.ok.injEq] at run
            exact absurd (run ▸ consumed) written

theorem length_slots_le {ws : StateGroup V} (distinct : (slots ws).Nodup) :
    0 + ws.length ≤ 2 ^ 64 := by
  have card : (slots ws).length ≤ Fintype.card (Fin maxSlots) := distinct.length_le_card
  rw [slots, List.length_map, Fintype.card_fin] at card
  have small : maxSlots ≤ 2 ^ 64 := by decide
  omega

/-- Registration of structs one by one, in constructor order. -/
def registerAll (regs : List (Fin maxSlots × Node V)) : StateGroup V :=
  regs.foldl (fun mgr reg => statemgrRegister reg.1 reg.2 mgr) []

def entryOf (reg : Fin maxSlots × Node V) : Entry V := { chain := [reg.2], slot := reg.1 }

theorem register_new {slot : Fin maxSlots} {mgr : StateGroup V} (absent : slot ∉ slots mgr)
    (node : Node V) : statemgrRegister slot node mgr = mgr ++ [entryOf (slot, node)] := by
  induction mgr with
  | nil => rfl
  | cons entry mgr ih =>
      have parts : ¬ slot = entry.slot ∧ slot ∉ slots mgr := by simpa [slots] using absent
      rw [statemgrRegister, if_neg (Ne.symm parts.1), ih parts.2, List.cons_append]

theorem registerAll_eq {regs : List (Fin maxSlots × Node V)} (distinct : (regs.map Prod.fst).Nodup) :
    registerAll regs = regs.map entryOf := by
  have general : ∀ (regs : List (Fin maxSlots × Node V)) (mgr : StateGroup V),
      (slots mgr ++ regs.map Prod.fst).Nodup →
      regs.foldl (fun mgr reg => statemgrRegister reg.1 reg.2 mgr) mgr = mgr ++ regs.map entryOf := by
    intro regs
    induction regs with
    | nil => simp
    | cons reg regs ih =>
        intro mgr separate
        have absent : reg.1 ∉ slots mgr := by
          intro member
          exact (List.nodup_append.mp separate).2.2 reg.1 member reg.1 (by simp) rfl
        rw [List.foldl_cons, register_new absent, ih]
        · simp
        · simpa [slots, entryOf] using separate
  simpa [registerAll] using general regs [] (by simpa [slots] using distinct)

theorem slots_entryOf (regs : List (Fin maxSlots × Node V)) :
    slots (regs.map entryOf) = regs.map Prod.fst := by
  simp only [slots, List.map_map]
  rfl

theorem payload_entryOf (reg : Fin maxSlots × Node V) :
    marshableMarshal (entryOf reg).chain = reg.2.m.marshal reg.2.value := by
  simp [entryOf, marshableMarshal]

structure Registered (regs : List (Fin maxSlots × Node V)) : Prop where
  distinct : (regs.map Prod.fst).Nodup
  lawful : ∀ reg ∈ regs, Lawful reg.2.m
  bounded : ∀ reg ∈ regs, (reg.2.m.marshal reg.2.value).length < 2 ^ 64

theorem Registered.sound {regs : List (Fin maxSlots × Node V)} (good : Registered regs) :
    ∀ w ∈ regs.map entryOf, Sound w := by
  intro w member
  obtain ⟨reg, inside, rfl⟩ := List.mem_map.mp member
  refine ⟨by simp [entryOf], ?_, by rw [payload_entryOf]; exact good.bounded reg inside⟩
  intro node inChain
  obtain rfl : node = reg.2 := by simpa [entryOf] using inChain
  exact good.lawful reg inside

theorem agrees_entryOf {w r : Fin maxSlots × Node V} (slot : r.1 = w.1) (same : r.2.m = w.2.m) :
    Agrees (entryOf w) (entryOf r) :=
  ⟨slot, List.Forall₂.cons same List.Forall₂.nil⟩

theorem decoders_agree {ws rs : List (Fin maxSlots × Node V)} (good : Registered ws)
    (separate : (rs.map Prod.fst).Nodup) (length : rs.length = ws.length)
    (covers : Covers (rs.map entryOf) (ws.map entryOf)) (tail : List UInt8) :
    ∃ rs', statemgrUnmarshal (rs.map entryOf) (statemgrMarshal (ws.map entryOf) ++ tail) =
        .ok { mgr := rs', buf := tail, left := none
              handed := ws.map fun reg => (reg.1, reg.2.m.marshal reg.2.value) } ∧
      statemgrRecordUnmarshalGroup (rs.map entryOf) (statemgrMarshal (ws.map entryOf) ++ tail)
          (statemgrMarshal (ws.map entryOf)).length =
        .ok { mgr := rs', buf := tail, left := some 0
              handed := ws.map fun reg => (reg.1, reg.2.m.marshal reg.2.value) } ∧
      Restores (ws.map entryOf) (rs.map entryOf) rs' := by
  have distinct : (slots (ws.map entryOf)).Nodup := by
    rw [slots_entryOf]
    exact good.distinct
  have apart : (slots (rs.map entryOf)).Nodup := by
    rw [slots_entryOf]
    exact separate
  have hits : (rs.map entryOf).length = (ws.map entryOf).length := by
    simpa using length
  have handed : (ws.map entryOf).map (fun w => (w.slot, marshableMarshal w.chain)) =
      ws.map fun reg => (reg.1, reg.2.m.marshal reg.2.value) := by
    rw [List.map_map]
    refine List.map_congr_left fun reg _ => ?_
    simp only [Function.comp_apply, payload_entryOf]
    rfl
  refine ⟨restoreAll (ws.map entryOf) (rs.map entryOf), ?_, ?_, restores_restoreAll distinct _⟩
  · rw [statemgrUnmarshal, hits, decodeLoop_covered good.sound distinct (length_slots_le distinct)
      tail apart covers rfl (Or.inl rfl), handed]
    rfl
  · rw [statemgrRecordUnmarshalGroup, hits, decodeLoop_covered good.sound distinct
      (length_slots_le distinct) tail apart covers rfl (Or.inr rfl), handed]
    rfl

/-- The format round-trips whatever the registration orders of writer and reader: the buffer has
the announced size, both decoders read all of it and nothing behind it, and every slot's payload
is handed to its marshable exactly once, restoring the writer's values. -/
theorem format_round_trips (ws rs : List (Fin maxSlots × Node V)) (good : Registered ws)
    (permuted : (rs.map fun reg => (reg.1, reg.2.m)).Perm (ws.map fun reg => (reg.1, reg.2.m)))
    (tail : List UInt8) :
    statemgrSize (registerAll ws) = .ok (statemgrMarshal (registerAll ws)).length ∧
    ∃ rs', statemgrUnmarshal (registerAll rs) (statemgrMarshal (registerAll ws) ++ tail) =
        .ok { mgr := rs', buf := tail, left := none
              handed := ws.map fun reg => (reg.1, reg.2.m.marshal reg.2.value) } ∧
      statemgrRecordUnmarshalGroup (registerAll rs) (statemgrMarshal (registerAll ws) ++ tail)
          (statemgrMarshal (registerAll ws)).length =
        .ok { mgr := rs', buf := tail, left := some 0
              handed := ws.map fun reg => (reg.1, reg.2.m.marshal reg.2.value) } ∧
      Restores (registerAll ws) (registerAll rs) rs' := by
  have slotsPerm : (rs.map Prod.fst).Perm (ws.map Prod.fst) := by
    have first := permuted.map Prod.fst
    simpa [List.map_map, Function.comp_def] using first
  have separate : (rs.map Prod.fst).Nodup := slotsPerm.nodup_iff.mpr good.distinct
  have covers : Covers (rs.map entryOf) (ws.map entryOf) := by
    intro w member
    obtain ⟨reg, inside, rfl⟩ := List.mem_map.mp member
    have pair : (reg.1, reg.2.m) ∈ rs.map fun reg => (reg.1, reg.2.m) :=
      permuted.mem_iff.mpr (List.mem_map_of_mem inside)
    obtain ⟨other, inOther, same⟩ := List.mem_map.mp pair
    obtain ⟨slot, functions⟩ := Prod.mk.inj same
    exact ⟨entryOf other, List.mem_map_of_mem inOther, agrees_entryOf slot functions⟩
  rw [registerAll_eq good.distinct, registerAll_eq separate]
  exact ⟨statemgrSize_eq good.sound 0,
    decoders_agree good separate (by simpa using slotsPerm.length_eq) covers tail⟩

def byteMarshable : Marshable UInt8 where
  size := some fun _ => 1
  marshal := fun v => [v]
  unmarshal := fun _ buf => buf.head?.map fun byte => (byte, buf.tail)

theorem byteMarshable_lawful : Lawful byteMarshable :=
  ⟨⟨_, rfl, fun _ => rfl⟩, fun _ _ _ => rfl⟩

def sampleReg (slot : Nat) (bound : slot < maxSlots) (value : UInt8) :
    Fin maxSlots × Node UInt8 := (⟨slot, bound⟩, ⟨byteMarshable, value⟩)

def sampleWriter : List (Fin maxSlots × Node UInt8) :=
  [sampleReg 3 (by decide) 7, sampleReg 5 (by decide) 9]

theorem sampleWriter_registered : Registered sampleWriter := by
  refine ⟨by decide, ?_, ?_⟩
  · intro reg member
    simp only [sampleWriter, List.mem_cons, List.not_mem_nil, or_false] at member
    rcases member with rfl | rfl <;> exact byteMarshable_lawful
  · intro reg member
    simp only [sampleWriter, List.mem_cons, List.not_mem_nil, or_false] at member
    rcases member with rfl | rfl <;> decide

theorem format_round_trips_swapped :
    ∃ rs', statemgrUnmarshal (registerAll [sampleReg 5 (by decide) 0, sampleReg 3 (by decide) 0])
        (statemgrMarshal (registerAll sampleWriter) ++ [1, 2]) =
      .ok { mgr := rs', buf := [1, 2], left := none
            handed := [(⟨3, by decide⟩, [7]), (⟨5, by decide⟩, [9])] } := by
  have both := format_round_trips sampleWriter
    [sampleReg 5 (by decide) 0, sampleReg 3 (by decide) 0] sampleWriter_registered
    (List.Perm.swap _ _ _) [1, 2]
  obtain ⟨_, rs', first, _⟩ := both
  exact ⟨rs', first⟩

/-- What a reader with other modules needs: both decoders end at the end of the buffer, whatever
follows it, and agree on a state in which the common slots are restored and all others are as
they were. -/
def Readable (ws rs : StateGroup V) : Prop :=
  ∀ tail, ∃ d d', statemgrUnmarshal rs (statemgrMarshal ws ++ tail) = .ok d ∧
    statemgrRecordUnmarshalGroup rs (statemgrMarshal ws ++ tail) (statemgrMarshal ws).length =
      .ok d' ∧
    d.buf = tail ∧ d'.buf = tail ∧ d'.mgr = d.mgr ∧ Restores ws rs d.mgr

theorem readable_iff_same_slots (ws rs : List (Fin maxSlots × Node V)) (good : Registered ws)
    (separate : (rs.map Prod.fst).Nodup)
    (compatible : ∀ w ∈ ws, ∀ r ∈ rs, r.1 = w.1 → r.2.m = w.2.m) :
    Readable (registerAll ws) (registerAll rs) ↔
      ∀ slot, slot ∈ ws.map Prod.fst ↔ slot ∈ rs.map Prod.fst := by
  rw [registerAll_eq good.distinct, registerAll_eq separate]
  constructor
  · intro readable
    obtain ⟨d, _, run, _, consumed, _⟩ := readable []
    have agree : Compatible (rs.map entryOf) (ws.map entryOf) := by
      intro w inW r inR same
      obtain ⟨writer, inWriter, rfl⟩ := List.mem_map.mp inW
      obtain ⟨other, inOther, rfl⟩ := List.mem_map.mp inR
      exact agrees_entryOf same (compatible writer inWriter other inOther same)
    have distinct : (slots (ws.map entryOf)).Nodup := by
      rw [slots_entryOf]
      exact good.distinct
    have apart : (slots (rs.map entryOf)).Nodup := by
      rw [slots_entryOf]
      exact separate
    rw [List.append_nil] at run
    have read := decodeLoop_consumes good.sound distinct (length_slots_le distinct)
      (d := { mgr := rs.map entryOf, buf := statemgrMarshal (ws.map entryOf), left := none
              handed := [] })
      apart agree rfl rfl (Nat.le_refl _) run consumed
    have inside : ws.map Prod.fst ⊆ rs.map Prod.fst := by
      intro slot member
      obtain ⟨reg, inReg, rfl⟩ := List.mem_map.mp member
      have found := read.1 (entryOf reg) (List.mem_map_of_mem inReg)
      rw [slots_entryOf] at found
      exact found
    have perm : (ws.map Prod.fst).Perm (rs.map Prod.fst) := by
      refine (good.distinct.subperm inside).perm_of_length_le ?_
      simpa using Nat.le_of_eq read.2
    exact fun slot => perm.mem_iff
  · intro same tail
    have perm : (rs.map Prod.fst).Perm (ws.map Prod.fst) :=
      (List.perm_ext_iff_of_nodup separate good.distinct).mpr fun slot => (same slot).symm
    have covers : Covers (rs.map entryOf) (ws.map entryOf) := by
      intro w member
      obtain ⟨reg, inside, rfl⟩ := List.mem_map.mp member
      obtain ⟨other, inOther, slot⟩ :=
        List.mem_map.mp ((same reg.1).mp (List.mem_map_of_mem inside))
      exact ⟨entryOf other, List.mem_map_of_mem inOther,
        agrees_entryOf slot (compatible reg inside other inOther slot)⟩
    obtain ⟨rs', first, second, restores⟩ :=
      decoders_agree good separate (by simpa using perm.length_eq) covers tail
    exact ⟨_, _, first, second, rfl, rfl, rfl, restores⟩

theorem readable_iff_same_slots_swapped :
    Readable (registerAll sampleWriter)
      (registerAll [sampleReg 5 (by decide) 0, sampleReg 3 (by decide) 0]) := by
  refine (readable_iff_same_slots sampleWriter
    [sampleReg 5 (by decide) 0, sampleReg 3 (by decide) 0] sampleWriter_registered (by decide)
    ?_).mpr (fun _ => (List.Perm.swap _ _ []).mem_iff)
  intro w inW r inR _
  simp only [sampleWriter, List.mem_cons, List.not_mem_nil, or_false] at inW inR
  rcases inW with rfl | rfl <;> rcases inR with rfl | rfl <;> rfl

/-- A reader without slot 3 stops in front of it and leaves slot 5 as it was; a reader with one
more slot reads a header behind the end of the buffer. -/
theorem other_modules_not_readable :
    (statemgrUnmarshal (registerAll [sampleReg 5 (by decide) 0])
        (statemgrMarshal (registerAll sampleWriter))).map
      (fun d => (d.buf.length, d.mgr.map fun entry => entry.chain.map Node.value)) =
        .ok (66, [[0]]) ∧
    (statemgrUnmarshal (registerAll (sampleReg 8 (by decide) 0 :: sampleWriter))
        (statemgrMarshal (registerAll sampleWriter))).map Decoder.buf =
      .error .headerOutOfBounds ∧
    ¬ Readable (registerAll sampleWriter) (registerAll [sampleReg 5 (by decide) 0]) := by
  refine ⟨rfl, rfl, ?_⟩
  intro readable
  obtain ⟨d, _, run, _, consumed, _⟩ := readable []
  have stopped : (statemgrUnmarshal (registerAll [sampleReg 5 (by decide) 0])
      (statemgrMarshal (registerAll sampleWriter) ++ [])).map (fun d => d.buf.length) = .ok 66 := rfl
  rw [run] at stopped
  simp [Except.map, consumed] at stopped

end Lotto.StatemgrFormat
