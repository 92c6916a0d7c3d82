import CodeToolKit.Lib.Utf16
import CodeToolKit.Lib.Words

/-!
# `utf.c`

`mms_utf8_to_utf16le` writes the texts of the commands.  It decodes one UTF-8 sequence after
the other (`utf8_decode`, which also takes the old sequences of five and six bytes, overlong
ones and surrogates) and encodes each code point (`utf16le_encode`, which refuses a trail
surrogate behind a lead surrogate and what lies beyond the last plane).

`Decodes` is the first half by itself.  What is written is the UTF-16 encoding of the decoded
code points, and the conversion succeeds exactly when no two surrogates would be joined and
the buffer is large enough (`mms_utf8_to_utf16le_iff`).
-/

namespace CodeToolKit.Libmms

open Lib

/-- A `uint8_t`. -/
abbrev Byte := BitVec 8

/-! ## The source -/

/-- `utf8_seqlen`. -/
def utf8_seqlen (ch : Byte) : ℕ :=
  if ch.toNat ≤ 0x7f then 1
  else if ch &&& 0xe0 = 0xc0 then 2
  else if ch &&& 0xf0 = 0xe0 then 3
  else if ch &&& 0xf8 = 0xf0 then 4
  else if ch &&& 0xfc = 0xf8 then 5
  else if ch &&& 0xfe = 0xfc then 6
  else 0

/-- The loop of `utf8_decode`, over the bytes behind the first. -/
def utf8_rest : ℕ → List Byte → ℕ → Option ℕ
  | 0, _, cp => some cp
  | _ + 1, [], _ => none
  | n + 1, b :: ip, cp =>
      if b = 0 then none
      else if b &&& 0xc0 ≠ 0x80 then none
      else utf8_rest n ip (cp <<< 6 ||| (b &&& 0x3f).toNat)

/-- `utf8_decode` at a byte `b` and what follows: the number of bytes and the code point. -/
def utf8_decode (b : Byte) (ip : List Byte) : Option (ℕ × ℕ) :=
  let slen := utf8_seqlen b
  if slen = 0 then none
  else
    let cp := if slen = 1 then b.toNat &&& 0x7f else b.toNat &&& ((1 <<< (8 - slen - 1)) - 1)
    (utf8_rest (slen - 1) ip cp).map fun cp ↦ (slen, cp)

/-- `utf16le_encode`: the bytes it writes. -/
def utf16le_encode (dest_size cp : ℕ) (prev : Option (List Byte)) : Option (List Byte) :=
  if cp ≤ 0xffff then
    if dest_size < 2 then none
    else if (0xdc00 ≤ cp ∧ cp ≤ 0xdfff) ∧
        ∃ p ∈ prev, 0xd800 ≤ ofBytes p ∧ ofBytes p ≤ 0xdbff then none
    else some (toBytes 2 cp)
  else if 0x10000 ≤ cp ∧ cp ≤ 0x10ffff then
    if dest_size < 4 then none
    else
      let cp := cp - 0x10000
      some (toBytes 2 (((cp &&& 0xffc00) >>> 10) + 0xd800) ++ toBytes 2 ((cp &&& 0x3ff) + 0xdc00))
  else none

/-- `prev_op`, when `out` is all that was written: the two bytes before `op`. -/
def prev_op (out : List Byte) : Option (List Byte) :=
  if out = [] then none else some (out.drop (out.length - 2))

/-- The loop of `mms_utf8_to_utf16le`, for a number of iterations. -/
def utf8_to_utf16le : ℕ → List Byte → ℕ → List Byte → Option (List Byte)
  | 0, _, _, _ => none
  | _ + 1, [], _, out => some out
  | fuel + 1, b :: ip, dest_size, out =>
      if b = 0 then some out
      else do
        let (slen, cp) ← utf8_decode b ip
        let op ← utf16le_encode dest_size cp (prev_op out)
        utf8_to_utf16le fuel ((b :: ip).drop slen) (dest_size - op.length) (out ++ op)

/-- `mms_utf8_to_utf16le`: what is written, or `none` where it returns 0.  The number that it
returns otherwise, the length of what is written, is left out. -/
def mms_utf8_to_utf16le (dest_size : ℕ) (str : List Byte) : Option (List Byte) :=
  if dest_size < 2 then none
  else (utf8_to_utf16le (str.length + 1) str (dest_size - 2) []).map fun out ↦ out ++ [0, 0]

/-! ## Code points -/

/-- The code points that `utf8_decode` finds in a text. -/
inductive Decodes : List Byte → List ℕ → Prop where
  | nil : Decodes [] []
  | nul (ip : List Byte) : Decodes (0 :: ip) []
  | cons {b : Byte} {ip : List Byte} {slen cp : ℕ} {cps : List ℕ} (hb : b ≠ 0)
      (hdecode : utf8_decode b ip = some (slen, cp)) (hcps : Decodes ((b :: ip).drop slen) cps) :
      Decodes (b :: ip) (cp :: cps)

/-- The bytes of a text in UTF-16. -/
def utf16Bytes (cps : List ℕ) : List Byte := (Utf16.encode cps).flatMap (toBytes 2)

/-- A code point may follow the bytes before it. -/
def MayFollow (prev : Option (List Byte)) (cp : ℕ) : Prop :=
  ∀ p ∈ prev, ¬ (Utf16.IsLead (ofBytes p) ∧ Utf16.IsTrail cp)

theorem utf8_seqlen_pos {b : Byte} {ip : List Byte} {slen cp : ℕ}
    (h : utf8_decode b ip = some (slen, cp)) : 0 < slen := by
  rw [utf8_decode] at h
  dsimp only at h
  split at h
  · cases h
  · rename_i hslen
    obtain ⟨_, -, h⟩ := Option.map_eq_some_iff.mp h
    cases h
    exact Nat.pos_of_ne_zero hslen

/-- A code point of the first plane is one unit. -/
theorem utf16Bytes_bmp {cp : ℕ} (h : cp < 0x10000) : utf16Bytes [cp] = toBytes 2 cp := by
  rw [utf16Bytes, Utf16.encode, List.flatMap_singleton, Utf16.units, if_pos h,
    List.flatMap_singleton]

/-- A code point of another plane is two units. -/
theorem utf16Bytes_pair {cp : ℕ} (h : 0x10000 ≤ cp) : utf16Bytes [cp] =
    toBytes 2 (0xd800 + (cp - 0x10000) / 0x400) ++
      toBytes 2 (0xdc00 + (cp - 0x10000) % 0x400) := by
  rw [utf16Bytes, Utf16.encode, List.flatMap_singleton, Utf16.units, if_neg (Nat.not_lt.mpr h),
    List.flatMap_cons, List.flatMap_singleton]

theorem utf16Bytes_cons (cp : ℕ) (cps : List ℕ) :
    utf16Bytes (cp :: cps) = utf16Bytes [cp] ++ utf16Bytes cps := by
  rw [utf16Bytes, utf16Bytes, utf16Bytes, ← List.flatMap_append, Utf16.encode, Utf16.encode,
    Utf16.encode, List.flatMap_singleton, List.flatMap_cons]

/-- The ten upper bits of a supplementary code point. -/
theorem land_shiftRight (n : ℕ) (hlt : n < 0x100000) : (n &&& 0xffc00) >>> 10 = n / 0x400 := by
  have hmask : (n &&& 0x3ff <<< 10) >>> 10 = (n >>> 10) &&& 0x3ff := by
    refine Nat.eq_of_testBit_eq fun i ↦ ?_
    simp only [Nat.testBit_shiftRight, Nat.testBit_and, Nat.testBit_shiftLeft,
      Nat.add_sub_cancel_left, Nat.le_add_right, decide_true, Bool.true_and]
  calc (n &&& 0xffc00) >>> 10
      = (n >>> 10) &&& 0x3ff := hmask
    _ = n / 0x400 % 0x400 := by
        rw [Nat.shiftRight_eq_div_pow]
        exact Nat.and_two_pow_sub_one_eq_mod _ 10
    _ = n / 0x400 := Nat.mod_eq_of_lt (by omega)

/-- **One code point.**  `utf16le_encode` writes its encoding when it may, and room is left. -/
theorem utf16le_encode_iff {dest_size cp : ℕ} {prev : Option (List Byte)} {op : List Byte} :
    utf16le_encode dest_size cp prev = some op ↔
      cp < 0x110000 ∧ MayFollow prev cp ∧ op = utf16Bytes [cp] ∧ op.length ≤ dest_size := by
  rw [utf16le_encode]
  by_cases hcp : cp ≤ 0xffff
  · have hlt : cp < 0x10000 := Nat.lt_succ_of_le hcp
    rw [if_pos hcp, utf16Bytes_bmp hlt]
    by_cases hsize : dest_size < 2
    · rw [if_pos hsize]
      refine ⟨fun h ↦ (by cases h), fun h ↦ ?_⟩
      obtain ⟨-, -, rfl, hle⟩ := h
      rw [length_toBytes] at hle
      omega
    · rw [if_neg hsize]
      have hfollow : MayFollow prev cp ↔ ¬ ((0xdc00 ≤ cp ∧ cp ≤ 0xdfff) ∧
          ∃ p ∈ prev, 0xd800 ≤ ofBytes p ∧ ofBytes p ≤ 0xdbff) := by
        constructor
        · rintro h ⟨⟨hlow, hhigh⟩, p, hp, hplow, hphigh⟩
          exact h p hp ⟨⟨hplow, Nat.lt_succ_of_le hphigh⟩, ⟨hlow, Nat.lt_succ_of_le hhigh⟩⟩
        · rintro h p hp ⟨⟨hplow, hphigh⟩, ⟨hlow, hhigh⟩⟩
          exact h ⟨⟨hlow, Nat.le_of_lt_succ hhigh⟩, p, hp, hplow, Nat.le_of_lt_succ hphigh⟩
      split
      · rename_i h
        exact ⟨fun h ↦ (by cases h), fun h' ↦ absurd h (hfollow.mp h'.2.1)⟩
      · rename_i h
        rw [Option.some.injEq]
        constructor
        · rintro rfl
          exact ⟨by omega, hfollow.mpr h, rfl, by rw [length_toBytes]; omega⟩
        · exact fun h' ↦ h'.2.2.1.symm
  · rw [if_neg hcp]
    by_cases hlt : cp ≤ 0x10ffff
    · have hle : 0x10000 ≤ cp := by omega
      have hfollow : MayFollow prev cp := by
        rintro p - ⟨-, -, hhigh⟩
        omega
      rw [if_pos ⟨hle, hlt⟩, utf16Bytes_pair hle]
      dsimp only
      rw [land_shiftRight (cp - 0x10000) (by omega),
        Nat.and_two_pow_sub_one_eq_mod _ 10, Nat.add_comm _ 0xd800, Nat.add_comm _ 0xdc00]
      by_cases hsize : dest_size < 4
      · rw [if_pos hsize]
        refine ⟨fun h ↦ (by cases h), fun h ↦ ?_⟩
        obtain ⟨-, -, rfl, hlength⟩ := h
        rw [List.length_append, length_toBytes, length_toBytes] at hlength
        omega
      · rw [if_neg hsize, Option.some.injEq]
        constructor
        · rintro rfl
          refine ⟨by omega, hfollow, rfl, ?_⟩
          rw [List.length_append, length_toBytes, length_toBytes]
          omega
        · exact fun h ↦ h.2.2.1.symm
    · rw [if_neg (fun h ↦ hlt h.2)]
      exact ⟨fun h ↦ (by cases h), fun h ↦ absurd (Nat.le_of_lt_succ h.1) hlt⟩

/-! ## The conversion -/

/-- The two bytes before the end. -/
theorem prev_op_append (out : List Byte) (u : ℕ) :
    prev_op (out ++ toBytes 2 u) = some (toBytes 2 u) := by
  have hlength : (out ++ toBytes 2 u).length - 2 = out.length := by
    rw [List.length_append, length_toBytes, Nat.add_sub_cancel]
  have hne : out ++ toBytes 2 u ≠ [] := List.append_ne_nil_of_right_ne_nil _ (List.cons_ne_nil _ _)
  rw [prev_op, if_neg hne, hlength, List.drop_left]

/-- What a code point leaves before the next one. -/
theorem mayFollow_written {out : List Byte} {cp cp' : ℕ} (hcp : cp < 0x110000) :
    MayFollow (prev_op (out ++ utf16Bytes [cp])) cp' ↔
      ¬ (Utf16.IsLead cp ∧ Utf16.IsTrail cp') := by
  by_cases hbmp : cp < 0x10000
  · have hcp' : ofBytes (toBytes 2 cp) = cp := ofBytes_toBytes_of_lt hbmp
    rw [utf16Bytes_bmp hbmp, prev_op_append, MayFollow]
    simp only [Option.mem_def, Option.some.injEq, forall_eq', hcp']
  · have hle := Nat.not_lt.mp hbmp
    rw [utf16Bytes_pair hle, ← List.append_assoc, prev_op_append]
    constructor
    · rintro - ⟨⟨-, hlead⟩, -⟩
      omega
    · rintro - p hp ⟨⟨-, hlead⟩, -⟩
      rw [← Option.some.inj hp, ofBytes_toBytes_of_lt (by omega)] at hlead
      omega

/-- What a text without characters decodes to. -/
theorem decodes_nil {cps : List ℕ} : Decodes [] cps ↔ cps = [] :=
  ⟨fun h ↦ (by cases h; rfl), fun h ↦ h ▸ .nil⟩

theorem decodes_nul {ip : List Byte} {cps : List ℕ} : Decodes (0 :: ip) cps ↔ cps = [] := by
  refine ⟨fun h ↦ ?_, fun h ↦ h ▸ .nul ip⟩
  cases h with
  | nul => rfl
  | cons hb => exact absurd rfl hb

theorem decodes_cons {b : Byte} {ip : List Byte} {cps : List ℕ} (hb : b ≠ 0) :
    Decodes (b :: ip) cps ↔ ∃ slen cp cps', utf8_decode b ip = some (slen, cp) ∧
      Decodes ((b :: ip).drop slen) cps' ∧ cps = cp :: cps' := by
  constructor
  · intro h
    cases h with
    | nul => exact absurd rfl hb
    | cons _ hdecode hcps => exact ⟨_, _, _, hdecode, hcps, rfl⟩
  · rintro ⟨slen, cp, cps', hdecode, hcps, rfl⟩
    exact .cons hb hdecode hcps

/-- What is written of a text may be written behind `out`, in `dest_size` bytes. -/
def Writable (out : List Byte) (dest_size : ℕ) (cps : List ℕ) : Prop :=
  (∀ cp ∈ cps, cp < 0x110000) ∧ Utf16.Unpaired cps ∧
    (∀ cp ∈ cps.head?, MayFollow (prev_op out) cp) ∧ (utf16Bytes cps).length ≤ dest_size

theorem writable_nil (out : List Byte) (dest_size : ℕ) : Writable out dest_size [] :=
  ⟨fun _ h ↦ (by cases h), .nil, fun _ h ↦ (by cases h), Nat.zero_le _⟩

/-- A text is written code point by code point. -/
theorem writable_cons {out : List Byte} {dest_size cp : ℕ} {cps : List ℕ} :
    Writable out dest_size (cp :: cps) ↔
      (cp < 0x110000 ∧ MayFollow (prev_op out) cp ∧ (utf16Bytes [cp]).length ≤ dest_size) ∧
        Writable (out ++ utf16Bytes [cp]) (dest_size - (utf16Bytes [cp]).length) cps := by
  have hlength : (utf16Bytes (cp :: cps)).length =
      (utf16Bytes [cp]).length + (utf16Bytes cps).length := by
    rw [utf16Bytes_cons, List.length_append]
  rw [Writable, Writable, Utf16.Unpaired, List.isChain_cons, List.forall_mem_cons, hlength]
  constructor
  · rintro ⟨⟨hcp, hlt⟩, ⟨hhead, hpaired⟩, hfollow, hsize⟩
    refine ⟨⟨hcp, hfollow cp rfl, by omega⟩, hlt, hpaired, fun cp' hcp' ↦ ?_, by omega⟩
    exact (mayFollow_written hcp).mpr (hhead cp' hcp')
  · rintro ⟨⟨hcp, hfollow, hsize⟩, hlt, hpaired, hhead, hrest⟩
    refine ⟨⟨hcp, hlt⟩, ⟨fun cp' hcp' ↦ ?_, hpaired⟩, fun cp' hcp' ↦ ?_, by omega⟩
    · exact (mayFollow_written hcp).mp (hhead cp' hcp')
    · exact Option.some.inj hcp' ▸ hfollow

/-- Of no code points nothing is written. -/
theorem written_nil {dest_size : ℕ} {out out' : List Byte} : some out = some out' ↔
    ∃ cps, cps = [] ∧ Writable out dest_size cps ∧ out' = out ++ utf16Bytes cps := by
  rw [Option.some.injEq]
  constructor
  · rintro rfl
    exact ⟨[], rfl, writable_nil _ _, (List.append_nil _).symm⟩
  · rintro ⟨_, rfl, -, rfl⟩
    exact (List.append_nil _).symm

/-- **The loop.** -/
theorem utf8_to_utf16le_iff {fuel dest_size : ℕ} {str out out' : List Byte}
    (hfuel : str.length < fuel) : utf8_to_utf16le fuel str dest_size out = some out' ↔
      ∃ cps, Decodes str cps ∧ Writable out dest_size cps ∧ out' = out ++ utf16Bytes cps := by
  induction fuel generalizing str dest_size out with
  | zero => exact absurd hfuel (Nat.not_lt_zero _)
  | succ fuel ih =>
      cases str with
      | nil =>
          simp only [decodes_nil]
          exact written_nil
      | cons b ip =>
          rw [utf8_to_utf16le]
          by_cases hb : b = 0
          · subst hb
            simp only [decodes_nul]
            exact written_nil
          · rw [if_neg hb]
            -- the text behind the decoded sequence is shorter
            have hdrop : ∀ {slen cp}, utf8_decode b ip = some (slen, cp) →
                ((b :: ip).drop slen).length < fuel := by
              intro slen cp hdecode
              have hpos := utf8_seqlen_pos hdecode
              rw [List.length_drop]
              rw [List.length_cons] at hfuel ⊢
              omega
            simp only [decodes_cons hb, Option.bind_eq_bind, Option.bind_eq_some_iff, Prod.exists]
            constructor
            · rintro ⟨slen, cp, hdecode, op, hop, hrest⟩
              obtain ⟨hcp, hfollow, rfl, hsize⟩ := utf16le_encode_iff.mp hop
              obtain ⟨cps, hcps, hwritable, rfl⟩ := (ih (hdrop hdecode)).mp hrest
              refine ⟨cp :: cps, ⟨slen, cp, cps, hdecode, hcps, rfl⟩,
                writable_cons.mpr ⟨⟨hcp, hfollow, hsize⟩, hwritable⟩, ?_⟩
              rw [utf16Bytes_cons cp cps, List.append_assoc]
            · rintro ⟨_, ⟨slen, cp, cps, hdecode, hcps, rfl⟩, hwritable, rfl⟩
              obtain ⟨⟨hcp, hfollow, hsize⟩, hwritable⟩ := writable_cons.mp hwritable
              refine ⟨slen, cp, hdecode, utf16Bytes [cp],
                utf16le_encode_iff.mpr ⟨hcp, hfollow, rfl, hsize⟩,
                (ih (hdrop hdecode)).mpr ⟨cps, hcps, hwritable, ?_⟩⟩
              rw [utf16Bytes_cons cp cps, List.append_assoc]

/-- **The conversion.**  It succeeds exactly when the text decodes to code points that UTF-16
has, no two of which are surrogates that would be joined, and the buffer has room for them and
the terminator. -/
theorem mms_utf8_to_utf16le_iff {dest_size : ℕ} {str out : List Byte} :
    mms_utf8_to_utf16le dest_size str = some out ↔
      ∃ cps, Decodes str cps ∧ (∀ cp ∈ cps, cp < 0x110000) ∧ Utf16.Unpaired cps ∧
        out = utf16Bytes cps ++ [0, 0] ∧ out.length ≤ dest_size := by
  rw [mms_utf8_to_utf16le]
  by_cases hsize : dest_size < 2
  · rw [if_pos hsize]
    refine ⟨fun h ↦ (by cases h), ?_⟩
    rintro ⟨cps, -, -, -, rfl, hlength⟩
    rw [List.length_append] at hlength
    exact absurd (Nat.le_of_add_left_le hlength) (Nat.not_le.mpr hsize)
  · rw [if_neg hsize, Option.map_eq_some_iff]
    constructor
    · rintro ⟨out, hout, rfl⟩
      obtain ⟨cps, hcps, ⟨hlt, hpaired, -, hlength⟩, rfl⟩ :=
        (utf8_to_utf16le_iff (Nat.lt_succ_self _)).mp hout
      refine ⟨cps, hcps, hlt, hpaired, rfl, ?_⟩
      rw [List.nil_append, List.length_append]
      have htwo : ([0, 0] : List Byte).length = 2 := rfl
      omega
    · rintro ⟨cps, hcps, hlt, hpaired, rfl, hlength⟩
      rw [List.length_append] at hlength
      have htwo : ([0, 0] : List Byte).length = 2 := rfl
      refine ⟨utf16Bytes cps, (utf8_to_utf16le_iff (Nat.lt_succ_self _)).mpr
        ⟨cps, hcps, ⟨hlt, hpaired, ?_, by omega⟩, rfl⟩, rfl⟩
      rintro cp - p hp
      cases hp

/-! ## Texts -/

/-- The bytes of a text in UTF-8. -/
def utf8Bytes (text : List Char) : List Byte :=
  text.flatMap fun c ↦ (String.utf8EncodeChar c).map UInt8.toBitVec

/-- How long a sequence is, by its first byte. -/
theorem utf8_seqlen_eq : ∀ b : Byte, utf8_seqlen b =
    if b.toNat < 0x80 then 1 else if b.toNat < 0xc0 then 0 else if b.toNat < 0xe0 then 2
    else if b.toNat < 0xf0 then 3 else if b.toNat < 0xf8 then 4 else if b.toNat < 0xfc then 5
    else if b.toNat < 0xfe then 6 else 0 := by
  decide +kernel

/-- A byte behind the first. -/
def tail (m : ℕ) : Byte := BitVec.ofNat 8 (m + 0x80)

theorem tail_spec :
    ∀ m < 64, tail m ≠ 0 ∧ tail m &&& 0xc0 = 0x80 ∧ (tail m &&& 0x3f).toNat = m := by
  decide

theorem utf8_rest_tail {n m cp : ℕ} {ip : List Byte} (hm : m < 64) :
    utf8_rest (n + 1) (tail m :: ip) cp = utf8_rest n ip (cp * 64 + m) := by
  obtain ⟨hne, hmark, hbits⟩ := tail_spec m hm
  have hor : cp <<< 6 ||| m = cp * 64 + m := by
    rw [← Nat.shiftLeft_add_eq_or_of_lt hm, Nat.shiftLeft_eq]
  rw [utf8_rest, if_neg hne, if_neg (not_not_intro hmark), hbits, hor]

theorem utf8_rest_tails {ms : List ℕ} {cp : ℕ} {ip : List Byte} (hms : ∀ m ∈ ms, m < 64) :
    utf8_rest ms.length (ms.map tail ++ ip) cp =
      some (ms.foldl (fun cp m ↦ cp * 64 + m) cp) := by
  induction ms generalizing cp with
  | nil => rfl
  | cons m ms ih =>
      obtain ⟨hm, hms⟩ := List.forall_mem_cons.mp hms
      rw [List.map_cons, List.cons_append, List.length_cons, utf8_rest_tail hm, ih hms,
        List.foldl_cons]

theorem toNat_ofNat {n : ℕ} (hn : n < 256) : (BitVec.ofNat 8 n).toNat = n :=
  Nat.mod_eq_of_lt hn

/-- **A sequence.**  Its first byte is `n`, and the others carry `ms`. -/
theorem decodes_sequence {n cp : ℕ} (ms : List ℕ) {rest : List Byte} {cps : List ℕ}
    (hn : 0x80 ≤ n ∧ n < 256) (hslen : utf8_seqlen (BitVec.ofNat 8 n) = ms.length + 1)
    (hpos : ms ≠ []) (hms : ∀ m ∈ ms, m < 64)
    (hcp : ms.foldl (fun cp m ↦ cp * 64 + m) (n % 2 ^ (6 - ms.length)) = cp)
    (h : Decodes rest cps) :
    Decodes (BitVec.ofNat 8 n :: (ms.map tail ++ rest)) (cp :: cps) := by
  have hlength := List.length_pos_of_ne_nil hpos
  have hmask : n &&& ((1 <<< (8 - (ms.length + 1) - 1)) - 1) = n % 2 ^ (6 - ms.length) := by
    have hshift : 8 - (ms.length + 1) - 1 = 6 - ms.length := by omega
    rw [hshift, Nat.one_shiftLeft]
    exact Nat.and_two_pow_sub_one_eq_mod _ _
  have hdrop : Decodes ((BitVec.ofNat 8 n :: (ms.map tail ++ rest)).drop (ms.length + 1)) cps := by
    rw [List.drop_succ_cons, List.drop_left' (List.length_map _)]
    exact h
  refine .cons ?_ ?_ hdrop
  · intro h0
    have hzero : n = 0 := by
      rw [← toNat_ofNat hn.2, h0]
      rfl
    omega
  · rw [utf8_decode, hslen]
    dsimp only
    rw [if_neg (Nat.succ_ne_zero _), if_neg (by omega), toNat_ofNat hn.2, hmask,
      Nat.add_sub_cancel, utf8_rest_tails hms, Option.map_some,
      hcp]

theorem toNat_lt (c : Char) : c.toNat < 0x110000 := by
  rcases c.valid with h | h
  · exact Nat.lt_trans h (by decide)
  · exact h.2

theorem utf8Bytes_singleton (c : Char) : utf8Bytes [c] =
    if c.toNat ≤ 0x7f then [BitVec.ofNat 8 c.toNat]
    else if c.toNat ≤ 0x7ff then
      [BitVec.ofNat 8 (c.toNat / 64 % 0x20 + 0xc0), tail (c.toNat % 64)]
    else if c.toNat ≤ 0xffff then
      [BitVec.ofNat 8 (c.toNat / 4096 % 0x10 + 0xe0), tail (c.toNat / 64 % 64),
        tail (c.toNat % 64)]
    else
      [BitVec.ofNat 8 (c.toNat / 262144 % 0x08 + 0xf0), tail (c.toNat / 4096 % 64),
        tail (c.toNat / 64 % 64), tail (c.toNat % 64)] := by
  rw [utf8Bytes, List.flatMap_singleton, String.utf8EncodeChar]
  simp only [apply_ite (List.map UInt8.toBitVec)]
  rfl

/-- **One character.**  `utf8_decode` reads back what UTF-8 writes. -/
theorem decodes_char {c : Char} {rest : List Byte} {cps : List ℕ} (hc : c.toNat ≠ 0)
    (h : Decodes rest cps) : Decodes (utf8Bytes [c] ++ rest) (c.toNat :: cps) := by
  have hlt := toNat_lt c
  rw [utf8Bytes_singleton]
  generalize c.toNat = v at *
  have hmod : ∀ k, v / k % 64 < 64 := fun k ↦ Nat.mod_lt _ (by decide)
  split
  · rename_i h1
    have hv : (BitVec.ofNat 8 v).toNat = v := toNat_ofNat (by omega)
    have hslen : utf8_seqlen (BitVec.ofNat 8 v) = 1 := by
      rw [utf8_seqlen, hv, if_pos h1]
    have hand : v &&& 0x7f = v := (Nat.and_two_pow_sub_one_eq_mod _ 7).trans
      (Nat.mod_eq_of_lt (by omega))
    refine .cons ?_ ?_ (show Decodes ((BitVec.ofNat 8 v :: rest).drop 1) cps from h)
    · intro h0
      rw [h0] at hv
      exact hc hv.symm
    · rw [utf8_decode, hslen, hv]
      dsimp only
      rw [if_neg Nat.one_ne_zero, if_pos rfl, hand]
      rfl
  · split
    · refine decodes_sequence [v % 64] (by omega) ?_ (List.cons_ne_nil _ _) ?_ ?_ h
      · rw [utf8_seqlen_eq, toNat_ofNat (by omega), if_neg (by omega), if_neg (by omega),
          if_pos (by omega), List.length_singleton]
      · exact List.forall_mem_singleton.mpr (Nat.mod_lt _ (by decide))
      · rw [List.foldl_cons, List.foldl_nil, List.length_singleton]
        omega
    · split
      · refine decodes_sequence [v / 64 % 64, v % 64] (by omega) ?_
          (List.cons_ne_nil _ _) ?_ ?_ h
        · rw [utf8_seqlen_eq, toNat_ofNat (by omega), if_neg (by omega), if_neg (by omega),
            if_neg (by omega), if_pos (by omega)]
          rfl
        · exact List.forall_mem_cons.mpr ⟨hmod 64,
            List.forall_mem_singleton.mpr (Nat.mod_lt _ (by decide))⟩
        · rw [List.foldl_cons, List.foldl_cons, List.foldl_nil, List.length_cons,
            List.length_singleton]
          omega
      · refine decodes_sequence [v / 4096 % 64, v / 64 % 64, v % 64] (by omega) ?_
          (List.cons_ne_nil _ _) ?_ ?_ h
        · rw [utf8_seqlen_eq, toNat_ofNat (by omega), if_neg (by omega), if_neg (by omega),
            if_neg (by omega), if_neg (by omega), if_pos (by omega)]
          rfl
        · exact List.forall_mem_cons.mpr ⟨hmod 4096, List.forall_mem_cons.mpr ⟨hmod 64,
            List.forall_mem_singleton.mpr (Nat.mod_lt _ (by decide))⟩⟩
        · rw [List.foldl_cons, List.foldl_cons, List.foldl_cons, List.foldl_nil,
            List.length_cons, List.length_cons, List.length_singleton]
          omega

/-- `utf8_decode` reads a text back character by character. -/
theorem decodes_text {text : List Char} (h : ∀ c ∈ text, c.toNat ≠ 0) :
    Decodes (utf8Bytes text) (text.map Char.toNat) := by
  induction text with
  | nil => exact .nil
  | cons c text ih =>
      obtain ⟨hc, htext⟩ := List.forall_mem_cons.mp h
      have hbytes : utf8Bytes (c :: text) = utf8Bytes [c] ++ utf8Bytes text := by
        rw [utf8Bytes, utf8Bytes, utf8Bytes, List.flatMap_singleton, List.flatMap_cons]
      rw [hbytes, List.map_cons]
      exact decodes_char hc (ih htext)

/-- A text decodes in one way only. -/
theorem Decodes.unique {str : List Byte} {cps cps' : List ℕ} (h : Decodes str cps)
    (h' : Decodes str cps') : cps = cps' := by
  induction h generalizing cps' with
  | nil => exact (decodes_nil.mp h').symm
  | nul ip => exact (decodes_nul.mp h').symm
  | cons hb hdecode _ ih =>
      obtain ⟨slen, cp, cps', hdecode', hcps', rfl⟩ := (decodes_cons hb).mp h'
      rw [hdecode] at hdecode'
      obtain ⟨rfl, rfl⟩ := Prod.mk.injEq .. ▸ Option.some.inj hdecode'
      rw [ih hcps']

/-- Characters are no surrogates. -/
theorem unpaired_text (text : List Char) : Utf16.Unpaired (text.map Char.toNat) := by
  have hlead : ∀ c : Char, ¬ Utf16.IsLead c.toNat := by
    rintro c ⟨hlow, hhigh⟩
    rcases c.valid with h | h
    · exact absurd h (Nat.not_lt.mpr hlow)
    · exact absurd (Nat.lt_trans h.1 hhigh) (by decide)
  induction text with
  | nil => exact .nil
  | cons c text ih =>
      exact List.isChain_cons.mpr ⟨fun cp _ h ↦ hlead c h.1, ih⟩

/-- **Texts are converted.**  For every text without NUL the conversion writes its UTF-16
encoding and the terminator, if the buffer has room for that, and fails otherwise. -/
theorem mms_utf8_to_utf16le_text (dest_size : ℕ) {text : List Char} (h : ∀ c ∈ text, c ≠ '\x00') :
    mms_utf8_to_utf16le dest_size (utf8Bytes text) =
      if (utf16Bytes (text.map Char.toNat)).length + 2 ≤ dest_size
      then some (utf16Bytes (text.map Char.toNat) ++ [0, 0]) else none := by
  have hne : ∀ c ∈ text, c.toNat ≠ 0 := fun c hc h0 ↦ h c hc (Char.toNat_inj.mp h0)
  have hlt : ∀ cp ∈ text.map Char.toNat, cp < 0x110000 := by
    intro cp hcp
    obtain ⟨c, -, rfl⟩ := List.mem_map.mp hcp
    exact toNat_lt c
  apply Option.ext
  intro out
  rw [Option.ite_none_right_eq_some, mms_utf8_to_utf16le_iff, Option.some.injEq]
  constructor
  · rintro ⟨cps, hcps, -, -, rfl, hlength⟩
    rw [hcps.unique (decodes_text hne)] at hlength ⊢
    rw [List.length_append] at hlength
    exact ⟨hlength, rfl⟩
  · rintro ⟨hlength, rfl⟩
    refine ⟨_, decodes_text hne, hlt, unpaired_text text, rfl, ?_⟩
    rw [List.length_append]
    exact hlength

/-- A text of two characters, in a buffer that is just large enough. -/
theorem text_me : mms_utf8_to_utf16le 6 (utf8Bytes ['M', 'é']) = some [0x4d, 0, 0xe9, 0, 0, 0] := by
  have htext : ∀ c ∈ ['M', 'é'], c ≠ '\x00' := by
    rintro c (_ | ⟨_, _ | ⟨_, ⟨⟩⟩⟩) <;> decide
  rw [mms_utf8_to_utf16le_text 6 htext]
  decide

/-- **Nothing is misread.**  Whatever the bytes, when the conversion succeeds it has stayed in
the buffer, and reading the written units as UTF-16 gives the code points that were decoded. -/
theorem mms_utf8_to_utf16le_reads_back {dest_size : ℕ} {str out : List Byte}
    (h : mms_utf8_to_utf16le dest_size str = some out) :
    out.length ≤ dest_size ∧ ∃ us : List ℕ, out = us.flatMap (toBytes 2) ++ [0, 0] ∧
      (∀ u ∈ us, u < 0x10000) ∧ Decodes str (Utf16.decode us) := by
  obtain ⟨cps, hcps, hlt, hpaired, rfl, hlength⟩ := mms_utf8_to_utf16le_iff.mp h
  refine ⟨hlength, Utf16.encode cps, rfl, ?_, ?_⟩
  · intro u hu
    obtain ⟨cp, hcp, hu⟩ := List.mem_flatMap.mp hu
    exact Utf16.unit_lt (hlt cp hcp) hu
  · rw [Utf16.decode_encode hlt hpaired]
    exact hcps

/-- A lead surrogate by itself is taken and read back as it is. -/
theorem reads_back_lead : ∃ us : List ℕ, [0x00, 0xd8, 0x41, 0, 0, 0] = us.flatMap (toBytes 2) ++
    [0, 0] ∧ Decodes [0xed, 0xa0, 0x80, 0x41] (Utf16.decode us) := by
  have hout : mms_utf8_to_utf16le 6 [0xed, 0xa0, 0x80, 0x41] =
      some [0x00, 0xd8, 0x41, 0, 0, 0] := by
    decide
  obtain ⟨-, us, hus, -, hdecodes⟩ := mms_utf8_to_utf16le_reads_back hout
  exact ⟨us, hus, hdecodes⟩

end CodeToolKit.Libmms
