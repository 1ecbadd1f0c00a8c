import Mathlib.Data.Finset.Card
import Mathlib.Data.Finset.Fold
import Mathlib.Data.Int.Order.Basic
import Mathlib.Order.Interval.Finset.Nat
import Lotto.Library.ExactRun
import Lotto.Base

namespace Lotto.ChunkedFile

open Library.FaultRun Library.ExactRun

/-- The directory of a stream: the numbers of its chunk files and what they hold. A file is named by
its number, followed by the suffix. -/
structure Directory where
  chunks : Finset UInt64
  contents : UInt64 → List UInt8

namespace Directory

def create (d : Directory) (chunk : UInt64) : Directory :=
  ⟨insert chunk d.chunks, fun c => if c = chunk then [] else d.contents c⟩

def remove (d : Directory) (chunk : UInt64) : Directory :=
  { d with chunks := d.chunks.erase chunk }

def overwrite (d : Directory) (chunk : UInt64) (position : Nat) (bytes : List UInt8) : Directory :=
  { d with contents := fun c =>
      if c = chunk then
        (d.contents c).take position ++ bytes ++ (d.contents c).drop (position + bytes.length)
      else d.contents c }

end Directory

structure ChunkFile where
  chunk : UInt64
  position : Nat
  deriving DecidableEq, Repr

structure Stream where
  currentFp : Option ChunkFile
  totalFiles : UInt64
  currentFile : UInt64
  readOnly : Bool
  directory : Directory

section Operations

/-- `atoi` on the name of a chunk file: the number, saturated as a `long` and cut to an `int`. -/
def atoi (chunk : UInt64) : Int := Int.bmod (min chunk.toNat (2 ^ 63 - 1)) (2 ^ 32)

def writeNextFile (s : Stream) : Stream :=
  let file := if s.currentFp.isSome then s.currentFile + 1 else s.currentFile
  { currentFp := some ⟨file, 0⟩
    totalFiles := s.totalFiles + 1
    currentFile := file
    readOnly := false
    directory := s.directory.create file }

def scanFiles (s : Stream) : Stream :=
  { s with totalFiles := UInt64.ofInt (s.directory.chunks.fold max (-1) atoi + 1) }

def scanEmpty (s : Stream) : Stream := if s.totalFiles = 0 then scanFiles s else s

def openRead (s : Stream) : Except Fault Stream :=
  if s.currentFile ∈ s.directory.chunks then
    .ok { s with currentFp := some ⟨s.currentFile, 0⟩, readOnly := true }
  else .error .streamOpen

def readNextFile (s : Stream) : Except Fault Stream := do
  check (s.totalFiles ≠ 0 || s.currentFp.isNone) .streamScan
  let s := scanEmpty s
  if s.totalFiles ≤ s.currentFile then .ok s
  else
    let file := if s.currentFp.isSome then s.currentFile + 1 else s.currentFile
    let s := { s with currentFp := none, currentFile := file }
    if s.totalFiles - 1 < s.currentFile then .ok s else openRead s

def fwrite (s : Stream) (buf : List UInt8) : Nat × Stream :=
  match s.currentFp with
  | none => (0, s)
  | some file => (buf.length, { s with
      currentFp := some { file with position := file.position + buf.length }
      directory := s.directory.overwrite file.chunk file.position buf })

def write (s : Stream) (buf : List UInt8) : Nat × Stream :=
  let s := if s.currentFp.isNone then writeNextFile s else s
  let s := if s.readOnly then writeNextFile { s with currentFile := s.currentFile - 1 } else s
  fwrite s buf

/-- `sys_fread` from the open file, which yields nothing when the file was opened for writing. -/
def fread (s : Stream) (size : Nat) : List UInt8 × Stream :=
  match s.currentFp with
  | none => ([], s)
  | some file =>
      if s.readOnly then
        let bytes := ((s.directory.contents file.chunk).drop file.position).take size
        (bytes, { s with currentFp := some { file with position := file.position + bytes.length } })
      else ([], s)

def read (s : Stream) (size : Nat) : Except Fault (List UInt8 × Stream) :=
  if s.totalFiles = 0 then do
    let s ← readNextFile s
    .ok (fread s size)
  else .ok (fread s size)

def nchunks (s : Stream) : UInt64 × Stream := ((scanEmpty s).totalFiles, scanEmpty s)

def setChunk (s : Stream) (chunk : UInt64) : Except Fault (Bool × Stream) :=
  if s.currentFile = chunk ∧ s.currentFp.isSome then .ok (true, s)
  else
    let s := scanEmpty s
    if s.totalFiles ≤ chunk then .ok (false, s)
    else do
      let s ← openRead { s with currentFp := none, currentFile := chunk }
      .ok (true, s)

def nextChunk (s : Stream) : Stream :=
  if s.currentFp.isNone then s
  else { s with currentFp := none, currentFile := s.currentFile + 1 }

def truncateLoop (chunkLimit : UInt64) : Nat → Stream → Stream
  | 0, s => s
  | rounds + 1, s =>
      if chunkLimit < s.totalFiles then
        truncateLoop chunkLimit rounds { s with
          totalFiles := s.totalFiles - 1
          directory := s.directory.remove (s.totalFiles - 1) }
      else s

def truncate (s : Stream) (chunkLimit : UInt64) : Stream :=
  let s := scanEmpty s
  if s.totalFiles ≤ chunkLimit then s
  else
    let s := truncateLoop chunkLimit s.totalFiles.toNat { s with currentFp := none }
    { s with currentFile := if 0 < s.totalFiles then s.totalFiles - 1 else 0 }

/-- `stream_chunked_file` on an empty directory. The allocated `read_only` is not initialised. -/
def streamChunkedFile (readOnly : Bool) : Stream := ⟨none, 0, 0, readOnly, ⟨∅, fun _ => []⟩⟩

inductive StreamOp where
  | write (buf : List UInt8)
  | setChunk (chunk : UInt64)
  | nextChunk
  | truncate (chunkLimit : UInt64)
  | read (size : Nat)
  deriving DecidableEq, Repr

def StreamOp.exec : StreamOp → Stream → Except Fault Stream
  | .write buf, s => .ok (ChunkedFile.write s buf).2
  | .setChunk chunk, s => (ChunkedFile.setChunk s chunk).map Prod.snd
  | .nextChunk, s => .ok (ChunkedFile.nextChunk s)
  | .truncate chunkLimit, s => .ok (ChunkedFile.truncate s chunkLimit)
  | .read size, s => (ChunkedFile.read s size).map Prod.snd

end Operations

section Statements

/-- The reported number is the number of chunk files, these are numbered from 0, and exactly their
numbers can be selected. -/
structure Counted (s : Stream) : Prop where
  counts : (nchunks s).1.toNat = s.directory.chunks.card
  numbered : ∀ chunk, chunk ∈ s.directory.chunks ↔ chunk.toNat < s.totalFiles.toNat
  selects : ∀ chunk, ∃ s', setChunk s chunk = .ok (decide (chunk ∈ s.directory.chunks), s')

/-- A write to a file that is open for writing, or one that creates a file which did not exist and
whose number has a successor. -/
def Fresh (s : Stream) : StreamOp → Prop
  | .write _ =>
      match s.currentFp with
      | some _ => s.readOnly = false
      | none => s.currentFile ∉ s.directory.chunks ∧ s.currentFile ≠ ~~~0
  | _ => True

def CountsRight : Except Fault Stream → Prop
  | .ok s => Counted s
  | .error _ => False

end Statements

variable {s s' : Stream} {chunk : UInt64}

section Numbering

structure Numbered (s : Stream) : Prop where
  chunks : ∀ chunk, chunk ∈ s.directory.chunks ↔ chunk.toNat < s.totalFiles.toNat
  opened : s.currentFp.isSome → s.currentFile.toNat < s.totalFiles.toNat
  closed : s.currentFile.toNat ≤ s.totalFiles.toNat

theorem streamChunkedFile_numbered (readOnly : Bool) : Numbered (streamChunkedFile readOnly) where
  chunks chunk := by simp [streamChunkedFile]
  opened none := (Bool.false_ne_true none).elim
  closed := Nat.le_refl _

theorem Numbered.scanEmpty_eq (numbered : Numbered s) : scanEmpty s = s := by
  rw [scanEmpty]
  split
  · rename_i zero
    have empty : s.directory.chunks = ∅ := by
      refine Finset.eq_empty_of_forall_notMem fun chunk member => ?_
      have below := (numbered.chunks chunk).mp member
      rw [zero] at below
      exact absurd below (Nat.not_lt_zero _)
    have none : UInt64.ofInt (s.directory.chunks.fold max (-1) atoi + 1) = s.totalFiles := by
      rw [empty, Finset.fold_empty, zero]
      rfl
    rw [scanFiles, none]
  · rfl

theorem Numbered.card (numbered : Numbered s) :
    s.directory.chunks.card = s.totalFiles.toNat := by
  have numbers : s.directory.chunks.image UInt64.toNat = Finset.range s.totalFiles.toNat := by
    ext n
    rw [Finset.mem_image, Finset.mem_range]
    constructor
    · rintro ⟨chunk, member, rfl⟩
      exact (numbered.chunks chunk).mp member
    · intro below
      have small : n < 2 ^ 64 := Nat.lt_trans below s.totalFiles.toNat_lt
      have value : (UInt64.ofNat n).toNat = n := UInt64.toNat_ofNat_of_lt' small
      exact ⟨UInt64.ofNat n, (numbered.chunks _).mpr (by rwa [value]), value⟩
  rw [← Finset.card_range s.totalFiles.toNat, ← numbers,
    Finset.card_image_of_injective _ fun a b => UInt64.toNat_inj.mp]

theorem Numbered.openRead_eq (numbered : Numbered s)
    (below : s.currentFile.toNat < s.totalFiles.toNat) :
    openRead s = .ok { s with currentFp := some ⟨s.currentFile, 0⟩, readOnly := true } := by
  rw [openRead, if_pos ((numbered.chunks _).mpr below)]

/-- Which file is current, and how it is open, matters to `Numbered` only as its bounds say. -/
theorem Numbered.select (numbered : Numbered s) (fp : Option ChunkFile) (file : UInt64) (mode : Bool)
    (below : fp.isSome → file.toNat < s.totalFiles.toNat) (bound : file.toNat ≤ s.totalFiles.toNat) :
    Numbered { s with currentFp := fp, currentFile := file, readOnly := mode } :=
  ⟨numbered.chunks, below, bound⟩

theorem Numbered.setChunk_eq (numbered : Numbered s) (chunk : UInt64) :
    ∃ s', setChunk s chunk = .ok (decide (chunk ∈ s.directory.chunks), s') ∧ Numbered s' := by
  rw [setChunk, numbered.scanEmpty_eq]
  split
  · rename_i current
    have member : chunk ∈ s.directory.chunks := by
      rw [numbered.chunks, ← current.1]
      exact numbered.opened current.2
    exact ⟨s, by rw [decide_eq_true member], numbered⟩
  · by_cases above : s.totalFiles ≤ chunk
    · have missing : chunk ∉ s.directory.chunks := by
        rw [numbered.chunks, Nat.not_lt]
        exact UInt64.le_iff_toNat_le.mp above
      exact ⟨s, by rw [if_pos above, decide_eq_false missing], numbered⟩
    · have below : chunk.toNat < s.totalFiles.toNat := by
        rw [UInt64.le_iff_toNat_le] at above
        omega
      have selected := numbered.select none chunk s.readOnly
        (fun open_ => (Bool.false_ne_true open_).elim) (Nat.le_of_lt below)
      have member := (numbered.chunks chunk).mpr below
      refine ⟨_, ?_, numbered.select (some ⟨chunk, 0⟩) chunk true (fun _ => below) (Nat.le_of_lt below)⟩
      rw [if_neg above, selected.openRead_eq below, decide_eq_true member]
      rfl

theorem Numbered.counted (numbered : Numbered s) : Counted s where
  counts := by rw [nchunks, numbered.scanEmpty_eq, numbered.card]
  numbered := numbered.chunks
  selects chunk := by
    obtain ⟨s', selected, -⟩ := numbered.setChunk_eq chunk
    exact ⟨s', selected⟩

end Numbering

section Steps

theorem Numbered.nextChunk (numbered : Numbered s) : Numbered (nextChunk s) := by
  rw [ChunkedFile.nextChunk]
  cases fp : s.currentFp with
  | none => exact numbered
  | some file =>
      have below := numbered.opened (by rw [fp]; rfl)
      have bound := s.totalFiles.toNat_lt
      have next : (s.currentFile + 1).toNat = s.currentFile.toNat + 1 := by
        rw [UInt64.toNat_add]
        exact Nat.mod_eq_of_lt (by simp; omega)
      refine ⟨numbered.chunks, fun open_ => (Bool.false_ne_true open_).elim, ?_⟩
      change (s.currentFile + 1).toNat ≤ s.totalFiles.toNat
      omega

theorem truncateLoop_spec (chunkLimit : UInt64) (rounds : Nat)
    (chunks : ∀ chunk, chunk ∈ s.directory.chunks ↔ chunk.toNat < s.totalFiles.toNat)
    (limit : chunkLimit.toNat ≤ s.totalFiles.toNat)
    (enough : s.totalFiles.toNat ≤ chunkLimit.toNat + rounds) :
    (truncateLoop chunkLimit rounds s).totalFiles = chunkLimit ∧
      (truncateLoop chunkLimit rounds s).currentFp = s.currentFp ∧
      ∀ chunk, chunk ∈ (truncateLoop chunkLimit rounds s).directory.chunks ↔
        chunk.toNat < chunkLimit.toNat := by
  induction rounds generalizing s with
  | zero =>
      have reached : s.totalFiles = chunkLimit := UInt64.toNat_inj.mp (by omega)
      refine ⟨reached, rfl, fun chunk => ?_⟩
      rw [truncateLoop, chunks, reached]
  | succ rounds ih =>
      rw [truncateLoop]
      by_cases more : chunkLimit < s.totalFiles
      · have above := UInt64.lt_iff_toNat_lt.mp more
        have last : (s.totalFiles - 1).toNat = s.totalFiles.toNat - 1 :=
          UInt64.toNat_sub_of_le _ _ (UInt64.le_iff_toNat_le.mpr (by change 1 ≤ _; omega))
        rw [if_pos more]
        refine ih (fun chunk => ?_) (by simp only [last]; omega) (by simp only [last]; omega)
        change chunk ∈ s.directory.chunks.erase (s.totalFiles - 1) ↔
          chunk.toNat < (s.totalFiles - 1).toNat
        rw [Finset.mem_erase, chunks, last, Ne, ← UInt64.toNat_inj, last]
        omega
      · have reached : s.totalFiles = chunkLimit := by
          rw [UInt64.lt_iff_toNat_lt] at more
          exact UInt64.toNat_inj.mp (by omega)
        rw [if_neg more]
        refine ⟨reached, rfl, fun chunk => ?_⟩
        rw [chunks, reached]

theorem Numbered.truncate (numbered : Numbered s) (chunkLimit : UInt64) :
    Numbered (truncate s chunkLimit) := by
  rw [ChunkedFile.truncate, numbered.scanEmpty_eq]
  by_cases within : s.totalFiles ≤ chunkLimit
  · rw [if_pos within]
    exact numbered
  · have above : chunkLimit.toNat < s.totalFiles.toNat := by
      rw [UInt64.le_iff_toNat_le] at within
      omega
    rw [if_neg within]
    obtain ⟨total, closed, chunks⟩ := truncateLoop_spec (s := { s with currentFp := none }) chunkLimit
      s.totalFiles.toNat numbered.chunks (Nat.le_of_lt above) (Nat.le_add_left _ _)
    refine ⟨fun chunk => ?_, fun open_ => ?_, ?_⟩
    · rw [chunks, total]
    · rw [closed] at open_
      exact (Bool.false_ne_true open_).elim
    · simp only [total]
      by_cases positive : 0 < chunkLimit
      · have one : (1 : UInt64) ≤ chunkLimit :=
          UInt64.le_iff_toNat_le.mpr (UInt64.lt_iff_toNat_lt.mp positive)
        rw [if_pos positive, UInt64.toNat_sub_of_le _ _ one]
        exact Nat.sub_le _ _
      · rw [if_neg positive]
        exact Nat.zero_le _

theorem Numbered.read (numbered : Numbered s) (size : Nat) :
    ∃ bytes s', read s size = .ok (bytes, s') ∧ Numbered s' := by
  have reads : Numbered (fread s size).2 := by
    rw [fread]
    cases fp : s.currentFp with
    | none => exact numbered
    | some file =>
        cases mode : s.readOnly with
        | false => exact numbered
        | true =>
            have below := numbered.opened (by rw [fp]; rfl)
            exact ⟨numbered.chunks, fun _ => below, numbered.closed⟩
  rw [ChunkedFile.read]
  split
  · rename_i zero
    have closed : s.currentFp.isNone = true := by
      cases fp : s.currentFp with
      | none => rfl
      | some file =>
          have below := numbered.opened (by rw [fp]; rfl)
          rw [zero] at below
          exact absurd below (Nat.not_lt_zero _)
    have idle : readNextFile s = .ok s := by
      rw [readNextFile, closed, Bool.or_true, check_true, ok_bind]
      simp only [numbered.scanEmpty_eq]
      rw [if_pos (by rw [zero]; exact UInt64.zero_le)]
    exact ⟨_, _, by rw [idle, ok_bind], reads⟩
  · exact ⟨_, _, rfl, reads⟩

/-- Apart from its content, a written file is one more chunk unless it was open for writing. -/
theorem write_state (s : Stream) (buf : List UInt8) :
    (write s buf).2.currentFile = s.currentFile ∧ (write s buf).2.currentFp.isSome ∧
      ((s.currentFp.isSome ∧ s.readOnly = false ∧ (write s buf).2.totalFiles = s.totalFiles ∧
          (write s buf).2.directory.chunks = s.directory.chunks) ∨
        (¬(s.currentFp.isSome ∧ s.readOnly = false) ∧
          (write s buf).2.totalFiles = s.totalFiles + 1 ∧
          (write s buf).2.directory.chunks = insert s.currentFile s.directory.chunks)) := by
  obtain ⟨fp, total, file, mode, directory⟩ := s
  cases fp with
  | none => exact ⟨rfl, rfl, .inr ⟨by simp, rfl, rfl⟩⟩
  | some open_ =>
      cases mode with
      | false => exact ⟨rfl, rfl, .inl ⟨rfl, rfl, rfl, rfl⟩⟩
      | true =>
          have same : file - 1 + 1 = file := UInt64.sub_add_cancel file 1
          refine ⟨same, rfl, .inr ⟨by simp, rfl, ?_⟩⟩
          change insert (file - 1 + 1) directory.chunks = _
          rw [same]

theorem toNat_succ (n : UInt64) :
    (n + 1).toNat = n.toNat + 1 ∧ n ≠ ~~~0 ∨ (n + 1).toNat = 0 ∧ n = ~~~0 := by
  have bound := n.toNat_lt
  have sum : (n + 1).toNat = (n.toNat + 1) % 2 ^ 64 := by rw [UInt64.toNat_add]; rfl
  have top : n = ~~~0 ↔ n.toNat = 2 ^ 64 - 1 := by rw [← UInt64.toNat_inj]; rfl
  by_cases last : n.toNat = 2 ^ 64 - 1
  · exact .inr ⟨by rw [sum, last]; rfl, top.mpr last⟩
  · refine .inl ⟨?_, fun eq => last (top.mp eq)⟩
    rw [sum, Nat.mod_eq_of_lt (by omega)]

theorem Numbered.write (numbered : Numbered s) (buf : List UInt8) :
    (Fresh s (.write buf) ∧ Numbered (write s buf).2) ∨
      (¬Fresh s (.write buf) ∧ ¬Counted (write s buf).2) := by
  obtain ⟨file, open_, writing | ⟨reopened, total, chunks⟩⟩ := write_state s buf
  · obtain ⟨some_, mode, total, chunks⟩ := writing
    obtain ⟨fp, isSome⟩ := Option.isSome_iff_exists.mp some_
    refine .inl ⟨?_, ?_, ?_, ?_⟩
    · rw [Fresh, isSome]
      exact mode
    · rw [chunks, total]
      exact numbered.chunks
    · rw [file, total]
      exact fun _ => numbered.opened some_
    · rw [file, total]
      exact numbered.closed
  · by_cases fresh : Fresh s (.write buf)
    · have closed : s.currentFp = none := by
        cases fp : s.currentFp with
        | none => rfl
        | some _ =>
            rw [Fresh, fp] at fresh
            exact (reopened ⟨by rw [fp]; rfl, fresh⟩).elim
      rw [Fresh, closed] at fresh
      obtain ⟨new, notLast⟩ := fresh
      rw [numbered.chunks] at new
      have bound := numbered.closed
      have current : s.currentFile = s.totalFiles := UInt64.toNat_inj.mp (by omega)
      obtain ⟨next, -⟩ | ⟨-, last⟩ := toNat_succ s.totalFiles
      · refine .inl ⟨by rw [Fresh, closed]; exact ⟨by rwa [numbered.chunks], notLast⟩, ?_, ?_, ?_⟩
        · intro chunk
          rw [chunks, total, next, Finset.mem_insert, numbered.chunks, current, ← UInt64.toNat_inj]
          omega
        · intro _
          rw [file, total, next, current]
          exact Nat.lt_succ_self _
        · rw [file, total, next, current]
          exact Nat.le_succ _
      · exact absurd (current.trans last) notLast
    · refine .inr ⟨fresh, fun counted => ?_⟩
      have listed := counted.numbered
      rw [chunks, total] at listed
      obtain ⟨next, notLast⟩ | ⟨zero, -⟩ := toNat_succ s.totalFiles
      · -- The current file is a chunk already, so that the number of the counter is not used.
        have old : s.currentFile ∈ s.directory.chunks := by
          cases fp : s.currentFp with
          | none =>
              rw [Fresh, fp] at fresh
              by_contra new
              apply fresh
              refine ⟨new, fun last => notLast ?_⟩
              rw [numbered.chunks] at new
              have bound := numbered.closed
              rw [← last]
              exact UInt64.toNat_inj.mp (by omega)
          | some _ =>
              rw [numbered.chunks]
              exact numbered.opened (by rw [fp]; rfl)
        have used := (listed s.totalFiles).mpr (by rw [next]; exact Nat.lt_succ_self _)
        rw [Finset.insert_eq_of_mem old, numbered.chunks] at used
        exact Nat.lt_irrefl _ used
      · have used := (listed s.currentFile).mp (Finset.mem_insert_self _ _)
        rw [zero] at used
        exact Nat.not_lt_zero _ used

theorem Numbered.exec (numbered : Numbered s) (op : StreamOp) :
    ∃ s', op.exec s = .ok s' ∧
      ((Fresh s op ∧ Numbered s') ∨ (¬Fresh s op ∧ ¬Counted s')) := by
  cases op with
  | write buf => exact ⟨_, rfl, numbered.write buf⟩
  | setChunk chunk =>
      obtain ⟨s', selected, still⟩ := numbered.setChunk_eq chunk
      exact ⟨s', by rw [StreamOp.exec, selected]; rfl, .inl ⟨trivial, still⟩⟩
  | nextChunk => exact ⟨_, rfl, .inl ⟨trivial, numbered.nextChunk⟩⟩
  | truncate chunkLimit => exact ⟨_, rfl, .inl ⟨trivial, numbered.truncate chunkLimit⟩⟩
  | read size =>
      obtain ⟨bytes, s', reads, still⟩ := numbered.read size
      exact ⟨s', by rw [StreamOp.exec, reads]; rfl, .inl ⟨trivial, still⟩⟩

end Steps

section Runs

theorem numbered_exact :
    Exact StreamOp.exec CountsRight (fun _ _ => True) Fresh Numbered where
  holds _ numbered := numbered.counted
  keeps s op numbered _ fresh := by
    obtain ⟨s', done, ⟨-, still⟩ | ⟨stale, -⟩⟩ := numbered.exec op
    · rw [done]
      refine ⟨still.counted, fun _ same => ?_⟩
      cases same
      exact still
    · exact absurd fresh stale
  loses s op numbered _ stale := by
    obtain ⟨s', done, ⟨fresh, -⟩ | ⟨-, lost⟩⟩ := numbered.exec op
    · exact absurd fresh stale
    · rwa [done]

/-- The stream counts its files all along a run from an empty directory exactly when each write of
the run goes to a file open for writing or creates a new one. -/
theorem counts_files_iff (readOnly : Bool) (ops : List StreamOp) :
    HoldsAlong StreamOp.exec CountsRight ops (streamChunkedFile readOnly) ↔
      AllowedAlong StreamOp.exec Fresh ops (streamChunkedFile readOnly) :=
  numbered_exact.holdsAlong_iff ops (streamChunkedFile_numbered readOnly)
    (allowedAlong_true _ ops _)

/-- A chunk that is written again counts as another one, which cannot be selected. -/
theorem rewritten_chunk_counted_twice :
    ¬HoldsAlong StreamOp.exec CountsRight [.write [1], .nextChunk, .setChunk 0, .write [2]]
        (streamChunkedFile false) ∧
      ∃ s, (do
        let s ← (StreamOp.write [1]).exec (streamChunkedFile false)
        let s ← StreamOp.nextChunk.exec s
        let s ← (StreamOp.setChunk 0).exec s
        (StreamOp.write [2]).exec s) = .ok s ∧
        (nchunks s).1 = 2 ∧ s.directory.chunks = {0} ∧ setChunk s 1 = .error .streamOpen := by
  refine ⟨fun along => ?_, _, rfl, rfl, rfl, rfl⟩
  have counted := (along.2.2 _ rfl).2.2 _ rfl |>.2.2 _ rfl |>.2.1
  exact absurd counted.counts (by decide)

end Runs

end Lotto.ChunkedFile
