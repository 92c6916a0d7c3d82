import CodeToolKit.Serialize.SerializeData

/-!
# Who owns the buffers

`decode` sets `intelptr` to `m_data`, not to the buffer it returns.  So the buffer is
released by its caller or not at all, and what `intelptr` remembers is the block that the
object itself releases, in the next `encode` or the destructor.  When `intelptr` is used
before a call of `freeSpace` has reset it, a block is released twice or read after its
release (`not_owned_of_undisciplined`).

`Disciplined` is the use of an object that keeps clear of this, and of arrays whose size
in bytes is no `int`: then the blocks are owned as they should be in every run
(`owned_of_reachable`).
-/

namespace CodeToolKit.Serialize

open CodeToolKit.Lib

/-- `intelptr` is null when `decode` or the destructor would use it, and what is decoded
was encoded from less than `2 ^ 29` floats. -/
def Disciplined (s : St) : Act → Prop
  | .decode => (s.m_data ≠ none → 0 < s.m_size → s.intelptr = none) ∧
      ∀ floats, s.encoded = some floats → floats.length < 2 ^ 29
  | .destroy => s.intelptr = none
  | _ => True

/-- What holds of an object and its caller as long as the use is disciplined. -/
structure Inv (s : St) : Prop extends Owned s where
  freed_lt : ∀ b ∈ s.heap.freed, b < s.heap.blocks.length
  buffers : ∀ b ∈ s.buffers, s.heap.Live b ∧ s.m_data ≠ some b
  nodup : s.buffers.Nodup
  /-- `intelptr` points to the block of the object, or to one that the object released. -/
  intel : ∀ b, s.intelptr = some b → s.m_data = some b ∨ b ∈ s.heap.freed
  unencoded : s.encoded = none → s.m_data = none
  encoded : s.destroyed = false → ∀ floats, s.encoded = some floats → floats ≠ [] ∧
    (floats.length < 2 ^ 29 → ∃ b, s.m_data = some b ∧ s.heap.blocks[b]? = some floats) ∧
    (2 ^ 29 ≤ floats.length → s.m_size < 4 * floats.length)

theorem inv_initial : Inv .initial where
  safe := Heap.safe_empty
  m_data := nofun
  decoded := nofun
  freed_lt := nofun
  buffers := nofun
  nodup := List.nodup_nil
  intel := nofun
  unencoded _ := rfl
  encoded _ := nofun

/-! ## Sizes -/

/-- The size in bytes of an array of floats, as an `int`. -/
theorem toInt_size {n : ℕ} (hn : n < 2 ^ 31) :
    toInt ((n : ℤ) * 4) % 4 = 0 ∧ toInt ((n : ℤ) * 4) ≤ (n : ℤ) * 4 ∧
      (n < 2 ^ 29 → toInt ((n : ℤ) * 4) = (n : ℤ) * 4) ∧
      (2 ^ 29 ≤ n → toInt ((n : ℤ) * 4) < (n : ℤ) * 4) := by
  unfold toInt
  rw [Int.bmod_def]
  split <;> omega

/-! ## The block of the object is released -/

/-- What `deleteData` leaves. -/
structure DataDeleted (s : St) (o : SerializeData) : Prop where
  m_data : o.m_data = none
  m_size : o.m_size = s.m_size
  intelptr : o.intelptr = s.intelptr
  blocks : o.heap.blocks = s.heap.blocks
  safe : o.heap.Safe
  freed_lt : ∀ b ∈ o.heap.freed, b < o.heap.blocks.length
  buffers : ∀ b ∈ s.buffers, o.heap.Live b
  intel : ∀ b, s.intelptr = some b → b ∈ o.heap.freed

theorem Inv.deleteData {s : St} (hs : Inv s) : DataDeleted s s.deleteData := by
  cases hdata : s.m_data with
  | none =>
      have heq : s.deleteData = s.toSerializeData := by
        unfold SerializeData.deleteData
        rw [hdata]
      rw [heq]
      refine ⟨hdata, rfl, rfl, rfl, hs.safe, hs.freed_lt, fun b hb ↦ (hs.buffers b hb).1, ?_⟩
      intro b hb
      rcases hs.intel b hb with h | h
      · rw [hdata] at h
        cases h
      · exact h
  | some block =>
      have heq : s.deleteData =
          { s.toSerializeData with heap := s.heap.free block, m_data := none } := by
        unfold SerializeData.deleteData
        rw [hdata]
      obtain ⟨hlive, -⟩ := hs.m_data block hdata
      rw [heq]
      refine ⟨rfl, rfl, rfl, rfl, hs.safe.free hlive, Heap.freed_lt_free hs.freed_lt hlive.1,
        ?_, ?_⟩
      · intro b hb
        obtain ⟨hb, hne⟩ := hs.buffers b hb
        apply hb.free
        rintro rfl
        exact hne hdata
      · intro b hb
        rcases hs.intel b hb with h | h
        · rw [hdata] at h
          cases h
          exact List.mem_append_right _ List.mem_cons_self
        · exact List.mem_append_left _ h

/-! ## The calls -/

/-- A copy of an array is stored, under a size that is never too large. -/
theorem Inv.store {s : St} (hs : Inv s) {data : List Word} (hne : data ≠ []) {size : ℤ}
    (hmod : size % 4 = 0) (hle : size ≤ (data.length : ℤ) * 4)
    (hfits : data.length < 2 ^ 29 → size = (data.length : ℤ) * 4)
    (hover : 2 ^ 29 ≤ data.length → size < (data.length : ℤ) * 4) :
    Inv { s with toSerializeData := s.deleteData.store data size, encoded := some data } := by
  have hdel := hs.deleteData
  have hlong : 2 ^ 29 ≤ data.length → size < 4 * (data.length : ℤ) := by
    intro hlong
    rw [Int.mul_comm]
    exact hover hlong
  unfold SerializeData.store
  by_cases hneg : size < 0
  · -- the allocation fails, and the array was too long
    rw [if_pos hneg]
    have hnot : ¬ data.length < 2 ^ 29 := by
      intro hshort
      have := hfits hshort
      omega
    exact {
      safe := hdel.safe
      m_data := by
        intro b hb
        cases hdel.m_data.symm.trans hb
      decoded := hs.decoded
      freed_lt := hdel.freed_lt
      buffers := by
        intro b hb
        refine ⟨hdel.buffers b hb, ?_⟩
        intro h
        cases hdel.m_data.symm.trans h
      nodup := hs.nodup
      intel := fun b hb ↦ .inr (hdel.intel b (hdel.intelptr ▸ hb))
      unencoded := nofun
      encoded := by
        intro _ floats hfloats
        obtain rfl := Option.some.inj hfloats
        exact ⟨hne, fun hshort ↦ absurd hshort hnot, hlong⟩ }
  · rw [if_neg hneg]
    have hfresh := @Heap.live_fresh _ s.deleteData.heap (data.take (size.toNat / 4)) hdel.freed_lt
    have hblock := @Heap.getElem?_fresh _ s.deleteData.heap (data.take (size.toNat / 4))
    exact {
      safe := hdel.safe.alloc _
      m_data := by
        rintro _ ⟨⟩
        refine ⟨hfresh, _, hblock, ?_⟩
        have hlength : size = 4 * ((data.take (size.toNat / 4)).length : ℤ) := by
          rw [List.length_take]
          omega
        exact hlength
      decoded := hs.decoded
      freed_lt := Heap.freed_lt_alloc hdel.freed_lt _
      buffers := fun b hb ↦ ⟨(hdel.buffers b hb).alloc _, by
        rintro ⟨⟩
        exact Nat.lt_irrefl _ (hdel.buffers _ hb).1⟩
      nodup := hs.nodup
      intel := fun b hb ↦ .inr (hdel.intel b (hdel.intelptr ▸ hb))
      unencoded := nofun
      encoded := by
        intro _ floats hfloats
        obtain rfl := Option.some.inj hfloats
        refine ⟨hne, ?_, hlong⟩
        intro hshort
        refine ⟨_, rfl, ?_⟩
        have hall : size.toNat / 4 = data.length := by
          have := hfits hshort
          omega
        rw [hall, List.take_length] at hblock
        rw [hall, List.take_length]
        exact hblock }

theorem Inv.encode {s : St} (hs : Inv s) {data : List Word} (hne : data ≠ [])
    (hlt : data.length < 2 ^ 31) : Inv { s with
      toSerializeData := (s.toSerializeData.encode (some data) data.length).1
      encoded := some data } := by
  obtain ⟨hmod, hle, hfits, hover⟩ := toInt_size hlt
  have hpos : ¬ (data.length : ℤ) ≤ 0 := by
    have := List.length_pos_iff.mpr hne
    omega
  have heq : (s.toSerializeData.encode (some data) data.length).1 =
      s.deleteData.store data (toInt (data.length * 4)) := by
    unfold SerializeData.encode
    dsimp only
    rw [if_neg hpos]
  rw [heq]
  exact hs.store hne hmod hle hfits hover

/-- A call of `decode` that returns at once. -/
theorem Inv.decodeNothing {s : St} (hs : Inv s) (hd : s.destroyed = false)
    (hg : Disciplined s .decode) (hdata : s.m_data = none ∨ s.m_size ≤ 0) :
    Inv { s with decoded := s.decoded ++ [(s.encoded, [])] } where
  toOwned := by
    refine ⟨hs.safe, hs.m_data, ?_⟩
    intro floats returned hmem
    rcases List.mem_append.mp hmem with hmem | hmem
    · exact hs.decoded floats returned hmem
    · have heq := List.mem_singleton.mp hmem
      obtain ⟨hencoded, rfl⟩ := Prod.mk.inj heq
      obtain ⟨hne, hfits, -⟩ := hs.encoded hd floats hencoded.symm
      obtain ⟨b, hb, hblock⟩ := hfits (hg.2 floats hencoded.symm)
      -- the block of the floats is there and is not empty
      rcases hdata with hnone | hsize
      · rw [hnone] at hb
        cases hb
      · obtain ⟨-, floats', hblock', hlength⟩ := hs.m_data b hb
        rw [hblock] at hblock'
        cases hblock'
        have := List.length_pos_iff.mpr hne
        omega
  freed_lt := hs.freed_lt
  buffers := hs.buffers
  nodup := hs.nodup
  intel := hs.intel
  unencoded := hs.unencoded
  encoded := hs.encoded

/-- A call of `decode` that returns floats, when `intelptr` is null. -/
theorem Inv.decodeBlock {s : St} (hs : Inv s) (hd : s.destroyed = false)
    (hg : Disciplined s .decode) {block : ℕ} {floats : List Word} (hdata : s.m_data = some block)
    (hblock : s.heap.blocks[block]? = some floats) :
    Inv { s with
      heap := (s.heap.alloc floats).read block
      intelptr := some block
      buffers := s.buffers ++ [s.heap.fresh]
      decoded := s.decoded ++ [(s.encoded, floats)] } := by
  obtain ⟨hlive, -⟩ := hs.m_data block hdata
  have hfresh := @Heap.live_fresh _ s.heap floats hs.freed_lt
  have hkeep : ∀ b : ℕ, s.heap.Live b → ((s.heap.alloc floats).read block).Live b :=
    fun b hb ↦ hb.alloc floats
  have hget : ∀ b : ℕ, b < s.heap.blocks.length →
      ((s.heap.alloc floats).read block).blocks[b]? = s.heap.blocks[b]? :=
    fun b hb ↦ Heap.getElem?_alloc hb floats
  have hlatest : ∀ latest, s.encoded = some latest → floats = latest := by
    intro latest hlatest
    obtain ⟨-, hfits, -⟩ := hs.encoded hd latest hlatest
    obtain ⟨b, hb, hb'⟩ := hfits (hg.2 latest hlatest)
    rw [hdata, Option.some_inj] at hb
    rw [← hb, hblock, Option.some_inj] at hb'
    exact hb'
  exact {
    safe := (hs.safe.alloc floats).read (hlive.alloc floats)
    m_data := by
      intro b hb
      obtain ⟨hb', content, hcontent, hsize⟩ := hs.m_data b hb
      exact ⟨hkeep b hb', content, (hget b hb'.1).trans hcontent, hsize⟩
    decoded := by
      intro latest returned hmem
      rcases List.mem_append.mp hmem with hmem | hmem
      · exact hs.decoded latest returned hmem
      · obtain ⟨hencoded, rfl⟩ := Prod.mk.inj (List.mem_singleton.mp hmem)
        exact hlatest latest hencoded.symm
    freed_lt := Heap.freed_lt_alloc hs.freed_lt floats
    buffers := by
      intro b hb
      rcases List.mem_append.mp hb with hb | hb
      · obtain ⟨hb', hne⟩ := hs.buffers b hb
        exact ⟨hkeep b hb', hne⟩
      · rw [List.mem_singleton.mp hb]
        refine ⟨hfresh, ?_⟩
        intro h
        rw [show s.m_data = some block from hdata, Option.some_inj] at h
        exact Nat.lt_irrefl _ (h ▸ hlive.1)
    nodup := by
      refine List.nodup_append.mpr ⟨hs.nodup, List.nodup_singleton _, ?_⟩
      rintro b hb c hc rfl
      rw [List.mem_singleton.mp hc] at hb
      exact Nat.lt_irrefl _ (hs.buffers _ hb).1.1
    intel := by
      rintro _ ⟨⟩
      exact .inl hdata
    unencoded := hs.unencoded
    encoded := by
      intro hd latest hlatest
      obtain ⟨hne, hfits, hover⟩ := hs.encoded hd latest hlatest
      refine ⟨hne, ?_, hover⟩
      intro hshort
      obtain ⟨b, hb, hb'⟩ := hfits hshort
      exact ⟨b, hb, (hget b (hs.m_data b hb).1.1).trans hb'⟩ }

/-- What a call of `decode` does that returns floats. -/
theorem decode_eq {o : SerializeData} {block : ℕ} {floats : List Word}
    (hdata : o.m_data = some block) (hblock : o.heap.blocks[block]? = some floats)
    (hsize : o.m_size = 4 * floats.length) (hpos : 0 < o.m_size) :
    o.decode none =
      ({ o.deleteIntel with
        heap := (o.deleteIntel.heap.alloc floats).read block
        intelptr := some block }, some o.heap.fresh, (floats.length : ℤ)) := by
  have hkept : o.deleteIntel.m_size = o.m_size ∧
      o.deleteIntel.heap.blocks = o.heap.blocks := by
    unfold SerializeData.deleteIntel
    split <;> exact ⟨rfl, rfl⟩
  have hnum : o.m_size.toNat / 4 = floats.length := by omega
  have hne : 0 < floats.length := by omega
  have hcontent : o.heap.blocks.getD block [] = floats := by
    rw [List.getD_eq_getElem?_getD, hblock]
    rfl
  unfold SerializeData.decode Heap.fresh
  rw [hdata]
  dsimp only
  rw [if_neg (Int.not_le.mpr hpos), hkept.1, hkept.2, hnum, if_pos hne, hcontent,
    List.take_length]

/-- A call of `decode` without floats to return. -/
theorem decode_eq_self {o : SerializeData} (h : o.m_data = none ∨ o.m_size ≤ 0) :
    o.decode none = (o, none, 0) := by
  unfold SerializeData.decode
  cases hdata : o.m_data with
  | none => rfl
  | some block =>
      rw [hdata] at h
      dsimp only
      rw [if_pos (h.resolve_left (Option.some_ne_none block))]

/-- What a call of `decode` can do: it returns nothing, or the floats of the block. -/
theorem Inv.decode_cases {s s' : St} (hs : Inv s) (hn : s.next .decode = some s') :
    s.destroyed = false ∧
      ((s.m_data = none ∨ s.m_size ≤ 0) ∧
          s' = { s with decoded := s.decoded ++ [(s.encoded, [])] } ∨
        ∃ block floats, s.m_data = some block ∧ s.heap.blocks[block]? = some floats ∧
          s.m_size = 4 * floats.length ∧ 0 < s.m_size ∧
          s' = { s with
            toSerializeData := { s.deleteIntel with
              heap := (s.deleteIntel.heap.alloc floats).read block
              intelptr := some block }
            buffers := s.buffers ++ [s.heap.fresh]
            decoded := s.decoded ++ [(s.encoded, floats)] }) := by
  simp only [St.next] at hn
  split at hn
  · rename_i hd
    refine ⟨hd, ?_⟩
    by_cases hempty : s.m_data = none ∨ s.m_size ≤ 0
    · rw [decode_eq_self hempty] at hn
      cases hn
      refine .inl ⟨hempty, ?_⟩
      rw [Option.toList_none, List.append_nil]
      rfl
    · rw [not_or, Int.not_le] at hempty
      obtain ⟨hdata, hpos⟩ := hempty
      obtain ⟨block, hblock⟩ := Option.ne_none_iff_exists'.mp hdata
      obtain ⟨-, floats, hfloats, hsize⟩ := hs.m_data block hblock
      have hblocks : s.deleteIntel.heap.blocks = s.heap.blocks := by
        unfold SerializeData.deleteIntel
        split <;> rfl
      have hget : ((s.deleteIntel.heap.alloc floats).read block).blocks.getD s.heap.fresh [] =
          floats := by
        rw [List.getD_eq_getElem?_getD, Heap.blocks_read, Heap.fresh, ← hblocks]
        exact congrArg (Option.getD · []) (Heap.getElem?_fresh floats)
      rw [decode_eq hblock hfloats hsize hpos] at hn
      dsimp only at hn
      rw [Option.map_some, Option.getD_some, hget] at hn
      cases hn
      exact .inr ⟨block, floats, hblock, hfloats, hsize, hpos, rfl⟩
  · cases hn

theorem Inv.decode {s s' : St} (hs : Inv s) (hg : Disciplined s .decode)
    (hn : s.next .decode = some s') : Inv s' := by
  obtain ⟨hd, ⟨hempty, rfl⟩ | ⟨block, floats, hblock, hfloats, -, hpos, rfl⟩⟩ := hs.decode_cases hn
  · exact hs.decodeNothing hd hg hempty
  · have hdelete : s.deleteIntel = s.toSerializeData := by
      unfold SerializeData.deleteIntel
      rw [hg.1 (hblock ▸ Option.some_ne_none block) hpos]
    rw [hdelete]
    exact hs.decodeBlock hd hg hblock hfloats

theorem Inv.freeSpace {s : St} (hs : Inv s) {buff : ℕ} (hbuff : buff ∈ s.buffers) (num : ℤ) :
    Inv { s with
      toSerializeData := s.toSerializeData.freeSpace (some buff) num
      buffers := if num ≤ 0 then s.buffers else s.buffers.erase buff } := by
  unfold SerializeData.freeSpace
  dsimp only
  by_cases hnum : num ≤ 0
  · rw [if_pos hnum, if_pos hnum]
    exact hs
  · rw [if_neg hnum, if_neg hnum]
    obtain ⟨hlive, hne⟩ := hs.buffers buff hbuff
    exact {
      safe := hs.safe.free hlive
      m_data := by
        intro b hb
        obtain ⟨hb', hrest⟩ := hs.m_data b hb
        refine ⟨hb'.free ?_, hrest⟩
        rintro rfl
        exact hne hb
      decoded := hs.decoded
      freed_lt := Heap.freed_lt_free hs.freed_lt hlive.1
      buffers := by
        intro b hb
        obtain ⟨hother, hb⟩ := (hs.nodup.mem_erase_iff).mp hb
        obtain ⟨hb', hne'⟩ := hs.buffers b hb
        exact ⟨hb'.free hother, hne'⟩
      nodup := hs.nodup.erase buff
      intel := nofun
      unencoded := hs.unencoded
      encoded := hs.encoded }

theorem Inv.destroy {s : St} (hs : Inv s) (hg : s.intelptr = none) :
    Inv { s with toSerializeData := s.toSerializeData.destroy, destroyed := true } := by
  have hdel := hs.deleteData
  have heq : s.toSerializeData.destroy = s.deleteData := by
    unfold SerializeData.destroy SerializeData.deleteIntel
    rw [hdel.intelptr, hg]
  rw [heq]
  exact {
    safe := hdel.safe
    m_data := by
      intro b hb
      cases hdel.m_data.symm.trans hb
    decoded := hs.decoded
    freed_lt := hdel.freed_lt
    buffers := by
      intro b hb
      refine ⟨hdel.buffers b hb, ?_⟩
      intro h
      cases hdel.m_data.symm.trans h
    nodup := hs.nodup
    intel := fun b hb ↦ .inr (hdel.intel b (hdel.intelptr ▸ hb))
    unencoded := fun _ ↦ hdel.m_data
    encoded := nofun }

/-- **Step.** -/
theorem Inv.next {s s' : St} {a : Act} (hs : Inv s) (hg : Disciplined s a)
    (hn : s.next a = some s') : Inv s' := by
  cases a with
  | encode data =>
      simp only [St.next] at hn
      split at hn
      · rename_i h
        cases hn
        exact hs.encode h.2.1 h.2.2
      · cases hn
  | decode => exact hs.decode hg hn
  | freeSpace buff num =>
      simp only [St.next] at hn
      split at hn
      · rename_i h
        cases hn
        exact hs.freeSpace h.2 num
      · cases hn
  | destroy =>
      simp only [St.next] at hn
      split at hn
      · cases hn
        exact hs.destroy hg
      · cases hn

theorem inv_of_reachable {s : St} (h : system.ReachableIf Disciplined s) : Inv s :=
  h.invariant (fun _ hs ↦ hs ▸ inv_initial) fun _ _ _ hs hg hn ↦ hs.next hg hn

/-- **The blocks are owned as they should be** in every run that uses the object in a
disciplined way. -/
theorem owned_of_reachable {s : St} (h : system.ReachableIf Disciplined s) : Owned s :=
  (inv_of_reachable h).toOwned

/-! ## The condition is needed -/

/-- A call of `decode` that uses `intelptr` releases a block twice, or reads the block it has
just released. -/
theorem not_safe_decode {s : St} (hs : Inv s) {b : ℕ} (hintel : s.intelptr = some b)
    {block : ℕ} (hdata : s.m_data = some block) (floats : List Word) :
    ¬ ((s.deleteIntel.heap.alloc floats).read block).Safe := by
  have hdelete : s.deleteIntel.heap = s.heap.free b := by
    unfold SerializeData.deleteIntel
    rw [hintel]
  rw [hdelete]
  rcases hs.intel b hintel with hb | hb
  · -- the block of the object
    rw [hdata, Option.some_inj] at hb
    rw [hb]
    exact Heap.not_safe_read (List.mem_append_right _ List.mem_cons_self)
  · intro hsafe
    exact Heap.not_safe_free hb ⟨hsafe.freed_nodup, hs.safe.reads_live⟩

/-- An array that was encoded last and is too long. -/
theorem exists_long {s : St} (hg : ¬ Disciplined s .decode)
    (hintel : s.m_data ≠ none → 0 < s.m_size → s.intelptr = none) :
    ∃ floats, s.encoded = some floats ∧ 2 ^ 29 ≤ floats.length := by
  have hlatest : ¬ ∀ floats, s.encoded = some floats → floats.length < 2 ^ 29 :=
    fun hall ↦ hg ⟨hintel, hall⟩
  obtain ⟨floats, hlatest⟩ := not_forall.mp hlatest
  obtain ⟨hencoded, hlong⟩ := Classical.not_imp.mp hlatest
  exact ⟨floats, hencoded, Nat.not_lt.mp hlong⟩

theorem not_owned_decode {s s' : St} (hs : Inv s) (hn : s.next .decode = some s')
    (hg : ¬ Disciplined s .decode) : ¬ Owned s' := by
  intro ho
  obtain ⟨hd, ⟨hempty, rfl⟩ | ⟨block, floats, hblock, -, hsize, hpos, rfl⟩⟩ := hs.decode_cases hn
  · -- nothing is returned, though something was encoded
    obtain ⟨latest, hencoded, -⟩ := exists_long hg fun hdata hpos ↦
      absurd hempty (not_or.mpr ⟨hdata, Int.not_le.mpr hpos⟩)
    have hnil : [] = latest := ho.decoded latest []
      (List.mem_append_right _ (by rw [hencoded]; exact List.mem_cons_self))
    exact (hs.encoded hd latest hencoded).1 hnil.symm
  · cases hintel : s.intelptr with
    | some b => exact not_safe_decode hs hintel hblock floats ho.safe
    | none =>
        -- the block is too short for what was encoded
        obtain ⟨latest, hencoded, hlong⟩ := exists_long hg fun _ _ ↦ hintel
        have heq : floats = latest := ho.decoded latest floats
          (List.mem_append_right _ (by rw [hencoded]; exact List.mem_cons_self))
        have hover := (hs.encoded hd latest hencoded).2.2 hlong
        rw [hsize, heq] at hover
        exact Int.lt_irrefl _ hover

theorem not_owned_destroy {s s' : St} (hs : Inv s) (hn : s.next .destroy = some s')
    (hg : s.intelptr ≠ none) : ¬ Owned s' := by
  intro ho
  obtain ⟨b, hb⟩ := Option.ne_none_iff_exists'.mp hg
  have hdel := hs.deleteData
  simp only [St.next] at hn
  split at hn
  · cases hn
    have hdestroy : s.toSerializeData.destroy.heap = s.deleteData.heap.free b := by
      unfold SerializeData.destroy SerializeData.deleteIntel
      rw [hdel.intelptr, hb]
    exact Heap.not_safe_free (hdel.intel b hb) (hdestroy ▸ ho.safe)
  · cases hn

/-- **The condition is exact**: the first call that does not meet it, after calls that do,
leaves blocks that are not owned as they should be. -/
theorem not_owned_of_undisciplined {s s' : St} {a : Act} (h : system.ReachableIf Disciplined s)
    (hn : s.next a = some s') (hg : ¬ Disciplined s a) : ¬ Owned s' := by
  have hs := inv_of_reachable h
  cases a with
  | encode data => exact absurd trivial hg
  | decode => exact not_owned_decode hs hn hg
  | freeSpace buff num => exact absurd trivial hg
  | destroy => exact not_owned_destroy hs hn hg

/-! ## Two uses -/

/-- An object that is used as in the test program, and then once more. -/
def disciplinedUse : List Act := [.encode [1, 2], .decode, .freeSpace 1 2, .decode, .freeSpace 2 2,
  .encode [3], .destroy]

/-- It owns its blocks, and both decoded buffers hold the floats. -/
theorem owned_disciplinedUse : ∃ s, system.exec .initial disciplinedUse = some s ∧ Owned s ∧
    s.decoded = [(some [1, 2], [1, 2]), (some [1, 2], [1, 2])] := by
  have hfits : ∀ floats : List Word, some [1, 2] = some floats → floats.length < 2 ^ 29 := by
    rintro _ ⟨⟩
    decide
  refine ⟨_, rfl, owned_of_reachable ?_, rfl⟩
  refine .step (a := .destroy) (.step (a := .encode [3]) (.step (a := .freeSpace 2 2)
    (.step (a := .decode) (.step (a := .freeSpace 1 2) (.step (a := .decode)
      (.step (a := .encode [1, 2]) (.start rfl) trivial rfl) ⟨fun _ _ ↦ rfl, hfits⟩ rfl)
      trivial rfl) ⟨fun _ _ ↦ rfl, hfits⟩ rfl) trivial rfl) trivial rfl) rfl rfl

/-- The test program without the release of the buffer that it decoded. -/
def reclaimed : List Act := [.encode [1], .decode, .destroy]

/-- **The object can release its block twice.** -/
theorem not_owned : ¬ ∀ s, system.Reachable s → Owned s := by
  intro h
  have howned := h _ (System.reachable_of_exec reclaimed rfl rfl)
  exact absurd howned.safe.freed_nodup (by decide)

end CodeToolKit.Serialize
