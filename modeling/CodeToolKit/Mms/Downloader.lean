import Mathlib.Data.Int.Notation
import Mathlib.Data.List.GetD

/-!
# The `downloader`

`download` calls `read` until that returns no positive number, and writes the buffer to
the file each time it does.  `read` clears the buffer, lets `mmsx_read` fill it, and then
returns the byte behind the data, `buffer[count]`, where the number of bytes is meant.

That byte was cleared when the data do not fill the buffer, so the loop ends and the data
are not written (`download_short`); when they do fill it, or when `mmsx_read` failed, the
byte is none of the buffer's.  `around` is what stands there.  Whole buffers are written
as long as that byte happens to be positive (`download_full`), and the file is what was
received only when that is nothing (`writesReceived_iff`).
-/

namespace CodeToolKit.Mms

/-- A `char`. -/
abbrev Byte := BitVec 8

/-- What one call of `mmsx_read` puts into the buffer. -/
structure Chunk where
  bytes : List Byte
  pos : 0 < bytes.length
  le : bytes.length ≤ 1024

/-- A result of `mmsx_read`. -/
inductive Result where
  | data (chunk : Chunk)
  | done (code : ℤ) (nonpos : code ≤ 0)

/-- The results of the calls of `mmsx_read`: chunks, a result that is not positive, and
whatever further calls would give. -/
structure Session where
  chunks : List Chunk
  code : ℤ
  nonpos : code ≤ 0
  later : ℕ → Result

namespace Session

/-- The result of a call. -/
def result (s : Session) (call : ℕ) : Result :=
  match s.chunks[call]? with
  | some chunk => .data chunk
  | none => if call = s.chunks.length then .done s.code s.nonpos else s.later call

/-- What the chunks deliver. -/
def delivered (chunks : List Chunk) : List Byte := chunks.flatMap Chunk.bytes

end Session

/-- A `downloader` with its open file.  `calls` counts the calls of `mmsx_read` and
`inspected` lists the indexes at which `read` looks into the buffer; nothing reads them. -/
structure Downloader where
  buffer : Fin 1024 → Byte
  count : ℤ
  file : List Byte
  calls : ℕ
  inspected : List ℤ

namespace Downloader

/-- `buffer[i]`. -/
def byteAt (d : Downloader) (around : ℤ → Byte) (i : ℤ) : Byte :=
  if h : 0 ≤ i ∧ i < 1024 then d.buffer ⟨i.toNat, by omega⟩ else around i

/-- `mmsx_read(NULL, mms, buffer, 1024)`. -/
def mmsx_read (d : Downloader) (s : Session) : Downloader :=
  match s.result d.calls with
  | .data chunk => { d with
      buffer := fun i ↦ chunk.bytes.getD i (d.buffer i)
      count := chunk.bytes.length
      calls := d.calls + 1 }
  | .done code _ => { d with count := code, calls := d.calls + 1 }

/-- `read`, with the value it returns. -/
def read (d : Downloader) (s : Session) (around : ℤ → Byte) : Downloader × ℤ :=
  let d := { d with buffer := fun _ ↦ 0 }
  let d := d.mmsx_read s
  ({ d with inspected := d.inspected ++ [d.count] }, (d.byteAt around d.count).toInt)

/-- `fwrite(buffer, count, 1, fp)`. -/
def fwrite (d : Downloader) (around : ℤ → Byte) : Downloader :=
  { d with file := d.file ++ (List.range d.count.toNat).map fun (i : ℕ) ↦ d.byteAt around i }

/-- The loop of `download`, for a number of iterations; `none` when they are not enough, or
when the loop writes a negative number of bytes, which is undefined. -/
def download (s : Session) (around : ℤ → Byte) : ℕ → Downloader → Option Downloader
  | 0, _ => none
  | fuel + 1, d =>
      let (d, num) := d.read s around
      if num > 0 then
        if d.count < 0 then none else download s around fuel (d.fwrite around)
      else some d

/-- A `downloader` that has read nothing. -/
def opened : Downloader := ⟨fun _ ↦ 0, 0, [], 0, []⟩

end Downloader

open Downloader

/-- `download` ends after the first result that is not positive, with all that was
delivered in the file, and has looked only into the buffer. -/
def WritesReceived (s : Session) (around : ℤ → Byte) : Prop :=
  ∃ fuel d, download s around fuel opened = some d ∧
    d.file = Session.delivered s.chunks ∧
    d.calls = s.chunks.length + 1 ∧
    ∀ i ∈ d.inspected, 0 ≤ i ∧ i < 1024

section

variable {s : Session} {around : ℤ → Byte} {d d' : Downloader}

/-! ## One call of `read` -/

theorem read_data {chunk : Chunk} (h : s.result d.calls = .data chunk) :
    (d.read s around).1 = { d with
      buffer := fun i ↦ chunk.bytes.getD i 0
      count := chunk.bytes.length
      calls := d.calls + 1
      inspected := d.inspected ++ [(chunk.bytes.length : ℤ)] } := by
  unfold Downloader.read mmsx_read
  dsimp only
  rw [h]

theorem read_done {code : ℤ} {nonpos : code ≤ 0} (h : s.result d.calls = .done code nonpos) :
    (d.read s around).1 = { d with
      buffer := fun _ ↦ 0
      count := code
      calls := d.calls + 1
      inspected := d.inspected ++ [code] } := by
  unfold Downloader.read mmsx_read
  dsimp only
  rw [h]

theorem read_num : (d.read s around).2 =
    ((d.read s around).1.byteAt around (d.read s around).1.count).toInt := rfl

/-- A call of `read` looks at one index. -/
theorem read_inspected :
    (d.read s around).1.inspected = d.inspected ++ [(d.read s around).1.count] := by
  cases h : s.result d.calls with
  | data chunk => rw [read_data h]
  | done code nonpos => rw [read_done h]

/-- Behind data that leave room in the buffer, `read` finds a zero. -/
theorem read_short {chunk : Chunk} (h : s.result d.calls = .data chunk)
    (hshort : chunk.bytes.length < 1024) : (d.read s around).2 = 0 := by
  have hin : (0 : ℤ) ≤ (chunk.bytes.length : ℤ) ∧ (chunk.bytes.length : ℤ) < 1024 := by omega
  rw [read_num, read_data h]
  unfold Downloader.byteAt
  rw [dif_pos hin]
  dsimp only
  rw [Int.toNat_natCast, List.getD_eq_default _ _ (Nat.le_refl _)]
  rfl

/-- Behind data that fill the buffer, `read` finds what stands there. -/
theorem read_full {chunk : Chunk} (h : s.result d.calls = .data chunk)
    (hfull : chunk.bytes.length = 1024) : (d.read s around).2 = (around 1024).toInt := by
  rw [read_num, read_data h]
  unfold Downloader.byteAt
  rw [hfull]
  rfl

/-- After a result of zero, `read` finds a zero. -/
theorem read_zero (h : s.result d.calls = .done 0 (Int.le_refl 0)) :
    (d.read s around).2 = 0 := by
  rw [read_num, read_done h]
  rfl

/-- After data, `fwrite` writes them. -/
theorem fwrite_data {chunk : Chunk} (h : s.result d.calls = .data chunk) :
    ((d.read s around).1.fwrite around).file = d.file ++ chunk.bytes := by
  rw [read_data h]
  unfold Downloader.fwrite
  dsimp only
  congr 1
  rw [Int.toNat_natCast]
  apply List.ext_getElem
  · rw [List.length_map, List.length_range]
  · intro i _ hi
    have hle := chunk.le
    have hin : (0 : ℤ) ≤ (i : ℤ) ∧ (i : ℤ) < 1024 := by omega
    rw [List.getElem_map, List.getElem_range]
    unfold Downloader.byteAt
    rw [dif_pos hin]
    dsimp only
    rw [Int.toNat_natCast, List.getD_eq_getElem _ _ hi]

/-! ## The loop -/

theorem download_succ (fuel : ℕ) : download s around (fuel + 1) d =
    if 0 < (d.read s around).2 then
      if (d.read s around).1.count < 0 then none
      else download s around fuel ((d.read s around).1.fwrite around)
    else some (d.read s around).1 := rfl

/-- The loop only adds to the indexes at which it looks. -/
theorem inspected_isPrefix {fuel : ℕ} (h : download s around (fuel + 1) d = some d') :
    (d.read s around).1.inspected <+: d'.inspected := by
  induction fuel generalizing d with
  | zero =>
      rw [download_succ] at h
      split at h
      · split at h <;> cases h
      · cases h
        exact List.prefix_rfl
  | succ fuel ih =>
      rw [download_succ] at h
      split at h
      · split at h
        · cases h
        · refine List.IsPrefix.trans ?_ (ih h)
          rw [read_inspected (d := (d.read s around).1.fwrite around)]
          exact List.prefix_append _ _
      · cases h
        exact List.prefix_rfl

/-- The loop ends at data that leave room in the buffer, and does not write them. -/
theorem download_short {fuel : ℕ} {chunk : Chunk} (h : s.result d.calls = .data chunk)
    (hshort : chunk.bytes.length < 1024) :
    download s around (fuel + 1) d = some (d.read s around).1 := by
  rw [download_succ, read_short h hshort, if_neg (Int.lt_irrefl 0)]

/-- The loop writes data that fill the buffer and goes on, when the byte behind the buffer
is positive. -/
theorem download_full {fuel : ℕ} {chunk : Chunk} (h : s.result d.calls = .data chunk)
    (hfull : chunk.bytes.length = 1024) (hpos : 0 < (around 1024).toInt) :
    download s around (fuel + 1) d =
      download s around fuel ((d.read s around).1.fwrite around) := by
  rw [download_succ, read_full h hfull, if_pos hpos, if_neg]
  rw [read_data h]
  exact Int.not_lt.mpr (Int.natCast_nonneg _)

/-! ## What is written -/

/-- The result behind the chunks. -/
theorem result_length (hcode : s.code = 0) :
    s.result s.chunks.length = .done 0 (Int.le_refl 0) := by
  obtain ⟨chunks, code, nonpos, later⟩ := s
  dsimp only at hcode
  subst hcode
  unfold Session.result
  rw [List.getElem?_eq_none (Nat.le_refl _), if_pos rfl]

/-- **The loop.**  When the byte behind the buffer is positive and nothing fails, the file
gets the chunks before the first one that leaves room in the buffer. -/
theorem file_download (hpos : 0 < (around 1024).toInt) (hcode : s.code = 0) (chunks : List Chunk)
    (hle : d.calls ≤ s.chunks.length) (hrest : s.chunks.drop d.calls = chunks) :
    ∃ fuel d', download s around fuel d = some d' ∧ d'.file = d.file ++
      Session.delivered (chunks.takeWhile fun chunk ↦ chunk.bytes.length = 1024) := by
  induction chunks generalizing d with
  | nil =>
      have hcalls : d.calls = s.chunks.length :=
        Nat.le_antisymm hle (List.drop_eq_nil_iff.mp hrest)
      have hresult : s.result d.calls = .done 0 (Int.le_refl 0) := hcalls ▸ result_length hcode
      refine ⟨1, (d.read s around).1, ?_, ?_⟩
      · rw [download_succ, read_zero hresult, if_neg (Int.lt_irrefl 0)]
      · rw [read_done hresult]
        exact (List.append_nil _).symm
  | cons chunk chunks ih =>
      have hget : s.chunks[d.calls]? = some chunk := by
        rw [← List.head?_drop, hrest]
        rfl
      have hresult : s.result d.calls = .data chunk := by
        unfold Session.result
        rw [hget]
      by_cases hfull : chunk.bytes.length = 1024
      · have hcalls : ((d.read s around).1.fwrite around).calls = d.calls + 1 := by
          unfold Downloader.fwrite
          rw [read_data hresult]
        have hlt : d.calls < s.chunks.length := (List.getElem?_eq_some_iff.mp hget).1
        obtain ⟨fuel, d', hd', hfile⟩ := @ih ((d.read s around).1.fwrite around)
          (hcalls ▸ hlt) (by rw [hcalls, ← List.tail_drop, hrest]; rfl)
        refine ⟨fuel + 1, d', ?_, ?_⟩
        · rw [download_full hresult hfull hpos, hd']
        · rw [hfile, fwrite_data hresult, List.takeWhile_cons_of_pos (by simpa using hfull),
            List.append_assoc]
          rfl
      · have hshort : chunk.bytes.length < 1024 := Nat.lt_of_le_of_ne chunk.le hfull
        refine ⟨1, _, download_short hresult hshort, ?_⟩
        rw [List.takeWhile_cons_of_neg (by simpa using hfull), read_data hresult]
        exact (List.append_nil _).symm

/-- **The file is what was received exactly when nothing was.** -/
theorem writesReceived_iff (s : Session) (around : ℤ → Byte) :
    WritesReceived s around ↔ s.chunks = [] ∧ s.code = 0 := by
  constructor
  · rintro ⟨fuel, d, hd, hfile, -, hinspected⟩
    obtain ⟨fuel, rfl⟩ : ∃ k, fuel = k + 1 := by
      cases fuel with
      | zero => cases hd
      | succ k => exact ⟨k, rfl⟩
    -- the first index at which `read` looks
    have hfirst : 0 ≤ (opened.read s around).1.count ∧ (opened.read s around).1.count < 1024 := by
      apply hinspected
      apply (inspected_isPrefix hd).subset
      rw [read_inspected]
      exact List.mem_append_right _ List.mem_cons_self
    cases hchunks : s.chunks with
    | nil =>
        have hresult : s.result opened.calls = .done s.code s.nonpos := by
          unfold Session.result
          rw [hchunks]
          rfl
        rw [read_done hresult] at hfirst
        exact ⟨rfl, Int.le_antisymm s.nonpos hfirst.1⟩
    | cons chunk chunks =>
        have hresult : s.result opened.calls = .data chunk := by
          unfold Session.result
          rw [hchunks]
          rfl
        rw [read_data hresult] at hfirst
        have hshort : chunk.bytes.length < 1024 := Int.ofNat_lt.mp hfirst.2
        rw [download_short hresult hshort] at hd
        cases hd
        -- nothing was written, but the chunk is not empty
        rw [read_data hresult, hchunks] at hfile
        have hnil : chunk.bytes ++ Session.delivered chunks = [] := hfile.symm
        have hpos := chunk.pos
        rw [(List.append_eq_nil_iff.mp hnil).1] at hpos
        exact absurd hpos (Nat.lt_irrefl 0)
  · rintro ⟨hchunks, hcode⟩
    have hresult : s.result opened.calls = .done 0 (Int.le_refl 0) := by
      have hlength := @result_length s hcode
      rw [hchunks] at hlength
      exact hlength
    refine ⟨1, (opened.read s around).1, ?_, ?_, ?_, ?_⟩
    · rw [download_succ, read_zero hresult, if_neg (Int.lt_irrefl 0)]
    · rw [read_done hresult, hchunks]
      rfl
    · rw [read_done hresult, hchunks]
      rfl
    · rw [read_done hresult]
      intro i hi
      rw [List.mem_singleton.mp hi]
      decide

/-- A session that delivers one byte. -/
def oneByte : Session where
  chunks := [⟨[65], by decide, by decide⟩]
  code := 0
  nonpos := Int.le_refl 0
  later _ := .done 0 (Int.le_refl 0)

/-- **What is received can be lost.** -/
theorem not_writesReceived : ¬ ∀ (s : Session) (around : ℤ → Byte), WritesReceived s around := by
  intro h
  obtain ⟨fuel, d, hd, hfile, -, -⟩ := h oneByte fun _ ↦ 0
  cases fuel with
  | zero => cases hd
  | succ fuel =>
      have hresult : oneByte.result opened.calls = .data ⟨[65], by decide, by decide⟩ := rfl
      rw [download_short hresult (by decide)] at hd
      cases hd
      rw [read_data hresult] at hfile
      cases hfile

end

end CodeToolKit.Mms
