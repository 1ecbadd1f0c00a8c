import Lotto.Library.Ownership
import Lotto.Marshal

namespace Lotto.MarshalSpecs

open Library.FaultRun Library.ByteCodec Library.Ownership Marshal

section Words

@[simp] theorem length_wordBytes (word : UInt64) : (wordBytes word).length = 8 :=
  bytesLE_length 8 word.toNat

@[simp] theorem length_wordsBytes (words : List UInt64) :
    (wordsBytes words).length = 8 * words.length := by
  induction words with
  | nil => rfl
  | cons word words ih =>
      rw [wordsBytes, List.flatMap_cons, List.length_append, length_wordBytes, ← wordsBytes, ih,
        List.length_cons]
      omega

theorem wordsBytes_cons (word : UInt64) (words : List UInt64) :
    wordsBytes (word :: words) = wordBytes word ++ wordsBytes words := List.flatMap_cons

@[simp] theorem length_header (m : Header) : m.bytes.length = headerSize := length_wordsBytes _

theorem readWord_number {n : Nat} (bound : n < 2 ^ 64) (rest : List UInt8) :
    readWord (bytesLE 8 n ++ rest) = .ok (.ofNat n, rest) := by
  rw [readWord, takeLE_bytesLE (by simpa using bound)]

theorem readWord_word (word : UInt64) (rest : List UInt8) :
    readWord (wordBytes word ++ rest) = .ok (word, rest) := by
  rw [wordBytes, readWord_number word.toNat_lt, UInt64.ofNat_toNat]

theorem readWords_words (words : List UInt64) (rest : List UInt8) :
    readWords words.length (wordsBytes words ++ rest) = .ok (words, rest) := by
  induction words with
  | nil => rfl
  | cons word words ih =>
      rw [List.length_cons, readWords, wordsBytes_cons, List.append_assoc, readWord_word]
      simp only [ok_bind, ih]

theorem copyBytes_front {n : Nat} {front : List UInt8} (size : front.length = n)
    (rest : List UInt8) : copyBytes n (front ++ rest) = .ok front := by
  subst size
  simp [copyBytes]

theorem staticUnmarshal_struct {m : Header} {header payload : List UInt8}
    (whole : headerSize + payload.length = m.allocSize.toNat) (sized : header.length = headerSize)
    (rest : List UInt8) :
    staticUnmarshal m (header ++ payload ++ rest) = .ok (payload, rest) := by
  have behind : (header ++ payload ++ rest).drop headerSize = payload ++ rest := by
    rw [List.append_assoc, List.drop_left' sized]
  have ends : (header ++ payload ++ rest).drop m.allocSize.toNat = rest := by
    rw [List.drop_left']
    rw [List.length_append, sized, whole]
  rw [staticUnmarshal, behind, ends, copyBytes_front (by omega), ok_bind]

end Words

section Sizes

theorem length_content {t : TaskBlock} (valid : t.Valid) : t.content.length = t.size.toNat := by
  rw [TaskBlock.content, List.length_take, valid.block]
  exact Nat.min_eq_left (UInt64.le_iff_toNat_le.mp valid.room)

theorem sum_lengths {α : Type} {items : List α} {write : α → List UInt8} {size : α → Nat}
    (each : ∀ item ∈ items, (write item).length = size item) :
    (items.flatMap write).length = (items.map size).sum := by
  rw [List.length_flatMap]
  exact congrArg List.sum (List.map_congr_left each)

theorem length_static {s : StaticObject} (valid : s.Valid) :
    (staticMarshal s).length = s.m.allocSize.toNat := by
  rw [staticMarshal, List.length_append, length_header]
  exact valid

theorem length_mapItem {t : MapObject} (valid : t.Valid) {item : MapItem} (member : item ∈ t.items) :
    (mapItemMarshal item).length = item.m.allocSize.toNat := by
  have whole := valid.whole item member
  rw [valid.typed item member, mapItemMarshal]
  simp only [List.length_append, length_header, length_wordsBytes, List.length_cons, List.length_nil]
  rw [mapItemSize] at whole
  rw [headerSize]
  omega

theorem length_marshal {o : Object} (valid : o.Valid) : o.marshal.length = o.msize := by
  cases o with
  | static s => exact length_static valid
  | tidset t =>
      have tasks := length_content valid
      rw [TaskBlock.content] at tasks
      simp only [Object.marshal, Object.msize, tidsetMarshal, tidsetMsize, List.length_append,
        length_wordsBytes, tasks, List.length_cons, List.length_nil, taskBlockSize, headerSize]
  | tidbag t =>
      have tasks := length_content valid
      rw [TaskBlock.content] at tasks
      simp only [Object.marshal, Object.msize, tidbagMarshal, tidbagMsize, List.length_append,
        length_wordsBytes, length_header, tasks, List.length_cons, List.length_nil, taskBlockSize,
        headerSize]
  | map t =>
      have items := sum_lengths fun (item : MapItem) member => length_mapItem valid member
      simp only [Object.marshal, Object.msize, mapMarshal, mapMsize, List.length_append, length_header,
        length_wordBytes, bytesLE_length, items, mapSize, headerSize]
  | vec t =>
      have elements := sum_lengths fun item member => length_static (valid.whole item member)
      simp only [Object.marshal, Object.msize, vecMarshal, vecMsize, List.length_append,
        bytesLE_length, elements]

theorem length_marshableMarshal {chain : List Object} (valid : ∀ o ∈ chain, o.Valid) :
    (marshableMarshal chain).length = marshableSize chain :=
  sum_lengths fun o member => length_marshal (valid o member)

end Sizes

section Blocks

def blockAt (p : UInt64) : Multiset UInt64 := if p = 0 then 0 else {p}

theorem blockAt_pos {p : UInt64} (real : p ≠ 0) : blockAt p = {p} := if_neg real

theorem free_handles (p : UInt64) (h : Memory) :
    Handles .outOfMemory ⟨h.live, blockAt p⟩ (free p h) (fun h' => ⟨h'.live, 0⟩) fun _ => True where
  post := fun _ _ => trivial
  steps := by
    intro h' freed others
    rw [free] at freed
    split at freed
    · rename_i null
      cases freed
      rw [null]
      exact .refl
    · rename_i real
      obtain ⟨_, live, rest⟩ := bind_eq_ok.mp freed
      rw [check_ok_iff, decide_eq_true_iff] at live
      cases rest
      apply Relation.ReflTransGen.single
      rw [blockAt_pos real]
      simpa [Heap.frame] using @Step.release _ _ h.live others p live
  total := by
    intro others sound
    right
    rw [free]
    split
    · exact ⟨h, rfl⟩
    · rename_i real
      have live := sound.live p (by simp [Heap.frame, blockAt_pos real])
      simp only [Heap.frame] at live
      simp [live]

theorem malloc_handles (a : Allocator) (h : Memory) :
    Handles .outOfMemory ⟨h.live, 0⟩ (malloc a h) (fun r => ⟨r.2.live, blockAt r.1⟩)
      fun r => r.1 ≠ 0 where
  post := by
    intro r found
    rw [malloc] at found
    split at found
    · cases found
    · rename_i p picked
      cases found
      exact (a.fresh _ _ p picked).2
  steps := by
    intro r found others
    rw [malloc] at found
    split at found
    · cases found
    · rename_i p picked
      cases found
      obtain ⟨fresh, real⟩ := a.fresh _ _ p picked
      apply Relation.ReflTransGen.single
      rw [blockAt_pos real]
      simpa [Heap.frame] using @Step.acquire _ _ h.live others p fresh
  total := by
    intro others sound
    rw [malloc]
    split
    · exact .inl rfl
    · exact .inr ⟨_, rfl⟩

theorem realloc_handles (a : Allocator) (p : UInt64) (h : Memory) :
    Handles .outOfMemory ⟨h.live, blockAt p⟩ (realloc a p h) (fun r => ⟨r.2.live, blockAt r.1⟩)
      fun r => r.1 ≠ 0 :=
  (free_handles p h).bind fun h' _ => malloc_handles a h'

theorem check_handles {h : Heap UInt64} {cond : Bool} {fault : Fault}
    (passes : ∀ others, Sound (h.frame others) → cond = true) :
    Handles .outOfMemory h (check cond fault) (fun _ => h) fun _ => cond = true where
  post := fun _ => (check_ok_iff cond fault).mp
  steps := fun _ _ _ => .refl
  total := fun others sound => .inr ⟨(), (check_ok_iff cond fault).mpr (passes others sound)⟩

end Blocks

section Tasks

variable {a : Allocator} {s t : TaskBlock}

theorem fill_valid (valid : t.Valid) {tasks : List TaskId} (count : tasks.length = t.size.toNat) :
    TaskBlock.Valid { t with words := tasks ++ t.words.drop t.size.toNat } where
  struct := valid.struct
  block := by
    have room := UInt64.le_iff_toNat_le.mp valid.room
    rw [List.length_append, List.length_drop, valid.block, count]
    exact Nat.add_sub_of_le room
  room := valid.room
  pointer := valid.pointer

theorem fill_content {tasks : List TaskId} (count : tasks.length = t.size.toNat) (others : List UInt64) :
    TaskBlock.content { t with words := tasks ++ others } = tasks := by
  rw [TaskBlock.content, ← count]
  exact List.take_left

theorem tidsetRoom_handles (valid : t.Valid) {capacity size : UInt64} (room : size ≤ capacity)
    (h : Memory) :
    Handles .outOfMemory ⟨h.live, blockAt t.tasks⟩ (tidsetRoom a t capacity size h)
      (fun r => ⟨r.2.live, blockAt r.1.tasks⟩) fun r => r.1.Valid ∧ r.1.size = size := by
  rw [tidsetRoom]
  split
  · apply (free_handles t.tasks h).bind
    intro h _
    apply (malloc_handles a h).bind
    rintro ⟨p, h⟩ real
    exact Handles.done rfl ⟨⟨valid.struct, List.length_replicate, room, fun _ => real⟩, rfl⟩
  · rename_i enough
    have more : capacity ≤ t.capacity := UInt64.not_lt.mp enough
    exact Handles.done rfl ⟨⟨valid.struct, valid.block, UInt64.le_trans room more, valid.pointer⟩, rfl⟩

theorem tidset_handles (valid : s.Valid) (old : t.Valid) (rest : List UInt8) (h : Memory) :
    Handles .outOfMemory ⟨h.live, blockAt t.tasks⟩ (tidsetUnmarshal a t (tidsetMarshal s ++ rest) h)
      (fun r => ⟨r.2.2.live, blockAt r.1.tasks⟩)
      fun r => r.2.1 = rest ∧ r.1.content = s.content ∧ r.1.Valid := by
  have count := length_content valid
  have len : t.m.allocSize.toNat - headerSize = 24 := by rw [old.struct, taskBlockSize, headerSize]
  have split : tidsetMarshal s ++ rest = (wordBytes s.capacity ++ wordBytes s.size) ++
      (wordBytes s.tasks ++ (wordsBytes s.content ++ rest)) := by
    simp [tidsetMarshal, wordsBytes, TaskBlock.content]
  have payload : copyBytes (24 - 8) (tidsetMarshal s ++ rest) =
      .ok (wordBytes s.capacity ++ wordBytes s.size) := by
    rw [split, copyBytes_front (by simp)]
  have behind : (tidsetMarshal s ++ rest).drop 24 = wordsBytes s.content ++ rest := by
    rw [split, ← List.append_assoc, List.drop_left' (by simp)]
  have last : readWord (wordBytes s.size) = .ok (s.size, []) := by
    rw [← List.append_nil (wordBytes s.size), readWord_word]
  have fits : decide (s.size ≤ s.capacity) = true := decide_eq_true valid.room
  have tasks : readWords s.size.toNat (wordsBytes s.content ++ rest) = .ok (s.content, rest) := by
    rw [← count, readWords_words]
  simp only [tidsetUnmarshal, len, payload, behind, readWord_word, last, fits, check_true, ok_bind]
  apply (tidsetRoom_handles old valid.room h).bind
  rintro ⟨t, h⟩ ⟨room, size⟩
  simp only [tasks, ok_bind]
  apply (check_handles ?live).bind
  · rintro ⟨⟩ _
    rw [← size] at count ⊢
    exact Handles.done rfl ⟨rfl, fill_content count _, fill_valid room count⟩
  · intro others sound
    rw [decide_eq_true_iff]
    by_cases empty : s.size = 0
    · exact .inl empty
    · right
      have filled : t.capacity ≠ 0 := by
        have below := room.room
        rw [size] at below
        rintro none
        rw [none] at below
        exact empty (UInt64.le_zero_iff.mp below)
      exact sound.live t.tasks (by simp [Heap.frame, blockAt_pos (room.pointer filled)])

def refill (t s : TaskBlock) (p : UInt64) : TaskBlock :=
  { t with
    capacity := s.capacity, size := s.size, tasks := p
    words := s.content ++ List.replicate (s.capacity.toNat - s.size.toNat) 0 }

theorem tidbagUnmarshal_eq (valid : s.Valid) (old : t.Valid) (rest : List UInt8) (h : Memory) :
    tidbagUnmarshal a t (tidbagMarshal s ++ rest) h =
      free s.tasks h >>= fun h => malloc a h >>= fun r => .ok (refill t s r.1, rest, r.2) := by
  have count := length_content valid
  have len : t.m.allocSize.toNat - headerSize = 24 := by rw [old.struct, taskBlockSize, headerSize]
  have fields : (tidbagMarshal s ++ rest).drop headerSize =
      (wordBytes s.capacity ++ (wordBytes s.size ++ wordBytes s.tasks)) ++
        (wordsBytes s.content ++ rest) := by
    rw [tidbagMarshal, List.append_assoc, List.append_assoc, List.drop_left' (length_header s.m)]
    simp [wordsBytes, TaskBlock.content]
  have payload : copyBytes 24 ((tidbagMarshal s ++ rest).drop headerSize) =
      .ok (wordBytes s.capacity ++ (wordBytes s.size ++ wordBytes s.tasks)) := by
    rw [fields, copyBytes_front (by simp)]
  have behind : (tidbagMarshal s ++ rest).drop t.m.allocSize.toNat = wordsBytes s.content ++ rest := by
    rw [tidbagMarshal, List.append_assoc, List.drop_left']
    · rfl
    · rw [old.struct, List.length_append, length_header, length_wordsBytes]
      rfl
  have last : readWord (wordBytes s.tasks) = .ok (s.tasks, []) := by
    rw [← List.append_nil (wordBytes s.tasks), readWord_word]
  have fits : decide (s.size ≤ s.capacity) = true := decide_eq_true valid.room
  have tasks : readWords s.size.toNat (wordsBytes s.content ++ rest) = .ok (s.content, rest) := by
    rw [← count, readWords_words]
  simp only [tidbagUnmarshal, len, payload, behind, readWord_word, last, fits, check_true, ok_bind,
    tasks]
  rfl

theorem refill_restores (valid : s.Valid) (old : t.Valid) {p : UInt64} (real : p ≠ 0) :
    (refill t s p).content = s.content ∧ (refill t s p).Valid := by
  have count := length_content valid
  refine ⟨fill_content count _, ⟨old.struct, ?_, valid.room, fun _ => real⟩⟩
  rw [refill, List.length_append, count, List.length_replicate]
  exact Nat.add_sub_of_le (UInt64.le_iff_toNat_le.mp valid.room)

end Tasks

section Maps

variable {a : Allocator}

def addresses (items : List MapItem) : Multiset UInt64 := items.map (·.address)

theorem addresses_cons {item : MapItem} (real : item.address ≠ 0) (items : List MapItem) :
    addresses (item :: items) = blockAt item.address + addresses items := by
  rw [blockAt_pos real, Multiset.singleton_add]
  rfl

theorem mapClear_handles {items : List MapItem} (real : ∀ item ∈ items, item.address ≠ 0)
    (h : Memory) :
    Handles .outOfMemory ⟨h.live, addresses items⟩ (mapClear items h) (fun h' => ⟨h'.live, 0⟩)
      fun _ => True := by
  induction items generalizing h with
  | nil => exact Handles.done rfl trivial
  | cons item items ih =>
      rw [mapClear, addresses_cons (real item List.mem_cons_self)]
      apply ((free_handles item.address h).frame (addresses items)).bind
      intro h _
      rw [Heap.frame, zero_add]
      exact ih (fun other member => real other (List.mem_cons_of_mem item member)) h

def entries (items : List MapItem) : List (UInt64 × List UInt8) :=
  items.map fun item => (item.key, item.data)

theorem mapLoop_handles {mi : Header} {left items : List MapItem}
    (whole : ∀ item ∈ left, mapItemSize + item.data.length = mi.allocSize.toNat)
    (keys : (left.map (·.key) ++ items.map (·.key)).Nodup) (rest : List UInt8) (h : Memory) :
    Handles .outOfMemory ⟨h.live, addresses items⟩
      (mapLoop a mi left.length items (left.flatMap mapItemMarshal ++ rest) h)
      (fun r => ⟨r.2.2.live, addresses r.1⟩)
      fun r => r.2.1 = rest ∧ entries r.1 = (entries left).reverse ++ entries items := by
  induction left generalizing items h with
  | nil => exact Handles.done rfl ⟨rfl, rfl⟩
  | cons item left ih =>
      have size := whole item List.mem_cons_self
      rw [mapItemSize] at size
      have bytes : (item :: left).flatMap mapItemMarshal ++ rest =
          item.m.bytes ++ (wordBytes item.next ++ (wordBytes item.key ++ item.data)) ++
            (left.flatMap mapItemMarshal ++ rest) := by
        simp [mapItemMarshal, wordsBytes]
      have keyAt : readWord (((item :: left).flatMap mapItemMarshal ++ rest).drop (headerSize + 8)) =
          .ok (item.key, item.data ++ (left.flatMap mapItemMarshal ++ rest)) := by
        have regrouped : (item :: left).flatMap mapItemMarshal ++ rest =
            (item.m.bytes ++ wordBytes item.next) ++
              (wordBytes item.key ++ (item.data ++ (left.flatMap mapItemMarshal ++ rest))) := by
          rw [bytes]
          simp only [List.append_assoc]
        rw [regrouped, List.drop_left' (by simp), readWord_word]
      have struct : staticUnmarshal mi ((item :: left).flatMap mapItemMarshal ++ rest) =
          .ok (wordBytes item.next ++ (wordBytes item.key ++ item.data),
            left.flatMap mapItemMarshal ++ rest) := by
        rw [bytes, staticUnmarshal_struct _ (length_header item.m)]
        simp only [List.length_append, length_wordBytes, headerSize]
        omega
      have fresh : (items.all fun other => other.key != item.key) = true := by
        rw [List.all_eq_true]
        intro other member
        rw [List.map_cons, List.cons_append, List.nodup_cons] at keys
        rw [bne_iff_ne]
        intro same
        apply keys.1
        rw [← same]
        exact List.mem_append_right _ (List.mem_map_of_mem member)
      simp only [List.length_cons, mapLoop, keyAt, ok_bind, fresh, check_true]
      rw [← zero_add (addresses items)]
      apply ((malloc_handles a h).frame (addresses items)).bind
      rintro ⟨p, h⟩ real
      simp only [struct, readWord_word, ok_bind]
      have rotated : (left.map (·.key) ++ item.key :: items.map (·.key)).Nodup :=
        List.perm_middle.nodup_iff.mpr keys
      have loop := @ih (⟨p, mi, tailOf items, item.key, item.data⟩ :: items)
        (fun other member => whole other (List.mem_cons_of_mem item member)) rotated h
      rw [addresses_cons real] at loop
      apply loop.mono
      rintro r ⟨ends, done⟩
      refine ⟨ends, ?_⟩
      rw [done]
      simp [entries]

theorem find_eq_some {t : MapObject} (keys : (t.items.map (·.key)).Nodup) (key : UInt64)
    (data : List UInt8) : t.find key = some data ↔ (key, data) ∈ entries t.items := by
  rw [MapObject.find, entries, Option.map_eq_some_iff, List.mem_map]
  constructor
  · rintro ⟨item, found, rfl⟩
    have same : item.key = key := by simpa using List.find?_some found
    exact ⟨item, List.mem_of_find?_eq_some found, by rw [same]⟩
  · rintro ⟨item, member, same⟩
    cases same
    refine ⟨item, ?_, rfl⟩
    obtain ⟨front, back, split⟩ := List.append_of_mem member
    rw [split] at keys ⊢
    rw [List.find?_eq_some_iff_append]
    refine ⟨by simp, front, back, rfl, ?_⟩
    intro other before
    rw [List.map_append, List.map_cons, List.nodup_append] at keys
    simpa using keys.2.2 other.key (List.mem_map_of_mem before) item.key List.mem_cons_self

theorem map_handles {s t : MapObject} (valid : s.Valid) (old : t.Valid)
    (same : s.mi.allocSize = t.mi.allocSize) (rest : List UInt8) (h : Memory) :
    Handles .outOfMemory ⟨h.live, addresses t.items⟩ (mapUnmarshal a t (mapMarshal s ++ rest) h)
      (fun r => ⟨r.2.2.live, addresses r.1.items⟩)
      fun r => r.2.1 = rest ∧ r.1.nitems = s.nitems ∧ r.1.nitems = r.1.items.length ∧
        r.1.find = s.find := by
  have fields : (mapMarshal s ++ rest).drop (2 * headerSize) =
      (wordBytes (tailOf s.items) ++ bytesLE 8 s.nitems) ++
        (s.items.flatMap mapItemMarshal ++ rest) := by
    rw [mapMarshal, List.append_assoc, List.append_assoc, List.append_assoc, List.drop_left']
    · simp only [List.append_assoc]
    · simp only [List.length_append, length_header]
      rfl
  have payload : copyBytes (mapSize - 2 * headerSize) ((mapMarshal s ++ rest).drop (2 * headerSize)) =
      .ok (wordBytes (tailOf s.items) ++ bytesLE 8 s.nitems) := by
    rw [fields, copyBytes_front (by simp [mapSize, headerSize])]
  have behind : (mapMarshal s ++ rest).drop mapSize = s.items.flatMap mapItemMarshal ++ rest := by
    rw [mapMarshal, List.append_assoc, List.drop_left']
    simp [mapSize, headerSize]
  have count : readWord (bytesLE 8 s.nitems) = .ok (.ofNat s.nitems, []) := by
    rw [← List.append_nil (bytesLE 8 s.nitems), readWord_number valid.bound]
  have number : (UInt64.ofNat s.nitems).toNat = s.items.length := by
    rw [UInt64.toNat_ofNat_of_lt' valid.bound, valid.count]
  have whole : ∀ item ∈ s.items, mapItemSize + item.data.length = t.mi.allocSize.toNat := by
    rw [← same]
    exact valid.whole
  rw [mapUnmarshal]
  apply (mapClear_handles old.pointers h).bind
  intro h _
  simp only [payload, readWord_word, count, behind, number, ok_bind]
  have loop := @mapLoop_handles a t.mi s.items [] whole (by simpa using valid.keys) rest h
  apply loop.bind
  rintro ⟨items, buf, h⟩ ⟨ends, done⟩
  have keys : (items.map (·.key)).Nodup := by
    have firsts := congrArg (List.map Prod.fst) done
    have reversed : items.map (·.key) = (s.items.map (·.key)).reverse := by
      simpa [entries, Function.comp_def] using firsts
    rw [reversed]
    exact List.nodup_reverse.mpr valid.keys
  refine Handles.done rfl ⟨ends, ?_, rfl, ?_⟩
  · have sizes := congrArg List.length done
    rw [valid.count]
    simpa [entries] using sizes
  · funext key
    apply Option.ext
    intro data
    rw [find_eq_some keys, find_eq_some valid.keys, done]
    simp [entries]

end Maps

section Vecs

variable {a : Allocator}

theorem vecRoom_handles {t : VecObject} (room : t.cnt ≤ t.cap) (h : Memory) :
    Handles .outOfMemory ⟨h.live, blockAt t.items⟩ (vecRoom a t h)
      (fun r => ⟨r.2.live, blockAt r.1.items⟩)
      fun r => r.1.mi = t.mi ∧ r.1.cnt = t.cnt ∧ r.1.elements = t.elements ∧ t.cnt < r.1.cap := by
  rw [vecRoom]
  split
  · apply (realloc_handles a t.items h).bind
    rintro ⟨p, h⟩ _
    refine Handles.done rfl ⟨rfl, rfl, rfl, ?_⟩
    by_cases empty : t.cap = 0
    · simp only [empty, if_true]
      omega
    · simp only [empty, if_false]
      omega
  · rename_i enough
    exact Handles.done rfl ⟨rfl, rfl, rfl, Nat.lt_of_not_le enough⟩

theorem vecLoop_handles {left : List StaticObject} {t : VecObject} (room : t.cnt ≤ t.cap)
    (whole : ∀ item ∈ left, headerSize + item.payload.length = t.mi.allocSize.toNat)
    (rest : List UInt8) (h : Memory) :
    Handles .outOfMemory ⟨h.live, blockAt t.items⟩
      (vecLoop a left.length t (left.flatMap staticMarshal ++ rest) h)
      (fun r => ⟨r.2.2.live, blockAt r.1.items⟩)
      fun r => r.2.1 = rest ∧
        r.1.elements.map (·.payload) = t.elements.map (·.payload) ++ left.map (·.payload) ∧
        r.1.cnt = t.cnt + left.length ∧ r.1.cnt ≤ r.1.cap := by
  induction left generalizing t h with
  | nil => exact Handles.done rfl ⟨rfl, (List.append_nil _).symm, rfl, room⟩
  | cons item left ih =>
      rw [List.length_cons, vecLoop]
      apply (vecRoom_handles room h).bind
      rintro ⟨u, h⟩ ⟨typed, count, elements, space⟩
      have size := whole item List.mem_cons_self
      rw [← typed] at size whole
      have struct : staticUnmarshal u.mi ((item :: left).flatMap staticMarshal ++ rest) =
          .ok (item.payload, left.flatMap staticMarshal ++ rest) := by
        rw [List.flatMap_cons, List.append_assoc, staticMarshal,
          staticUnmarshal_struct size (length_header item.m)]
      simp only [struct, ok_bind]
      have loop := @ih
        { u with cnt := u.cnt + 1, elements := u.elements ++ [{ m := u.mi, payload := item.payload }] }
        (by rw [count]; exact space) (fun other member => whole other (List.mem_cons_of_mem item member)) h
      apply loop.mono
      rintro r ⟨ends, done, counted, fits⟩
      refine ⟨ends, ?_, ?_, fits⟩
      · rw [done, elements]
        simp
      · rw [counted, count]
        show t.cnt + 1 + left.length = t.cnt + (left.length + 1)
        omega

theorem vec_handles {s t : VecObject} (valid : s.Valid) (same : s.mi.allocSize = t.mi.allocSize)
    (rest : List UInt8) (h : Memory) :
    Handles .outOfMemory ⟨h.live, blockAt t.items⟩ (vecUnmarshal a t (vecMarshal s ++ rest) h)
      (fun r => ⟨r.2.2.live, blockAt r.1.items⟩)
      fun r => r.2.1 = rest ∧ r.1.elements.map (·.payload) = s.elements.map (·.payload) ∧
        r.1.cnt = s.cnt ∧ r.1.cnt ≤ r.1.cap := by
  have count : readWord (vecMarshal s ++ rest) =
      .ok (.ofNat s.cnt, s.elements.flatMap staticMarshal ++ rest) := by
    rw [vecMarshal, List.append_assoc, readWord_number valid.bound]
  have number : (UInt64.ofNat s.cnt).toNat = s.elements.length := by
    rw [UInt64.toNat_ofNat_of_lt' valid.bound, valid.count]
  have whole : ∀ item ∈ s.elements, headerSize + item.payload.length = t.mi.allocSize.toNat := by
    intro item member
    rw [← same, ← valid.typed item member]
    exact valid.whole item member
  rw [vecUnmarshal]
  apply (free_handles t.items h).bind
  intro h _
  simp only [count, number, ok_bind]
  have loop := @vecLoop_handles a s.elements { t with cnt := 0, cap := 0, items := 0, elements := [] }
    le_rfl whole rest h
  apply loop.bind
  rintro ⟨u, buf, h⟩ ⟨ends, done, counted, fits⟩
  have total : u.cnt = s.elements.length := counted.trans (Nat.zero_add _)
  have passes : (u.cnt == s.elements.length) = true := beq_iff_eq.mpr total
  simp only [passes, check_true, ok_bind]
  exact Handles.done rfl ⟨ends, done, total.trans valid.count.symm, fits⟩

end Vecs

end Lotto.MarshalSpecs
