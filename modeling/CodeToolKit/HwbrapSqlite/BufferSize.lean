import CodeToolKit.HwbrapSqlite.RuleDelete
import CodeToolKit.HwbrapSqlite.WriteStatement
import CodeToolKit.SQL.TextLength

/-!
# The buffers of the statements

Each call composes its statements in 1024 bytes.  The statements for linkage records, the queries
and the deletions always fit.  Those that write a rule have up to fifteen strings of 255 bytes:
they fit exactly for rules that are short enough (`fitsBuffers_iff`).  For a negative channel only
`AddRuleInfo` writes a rule, as `SetRuleInfo` returns before it composes anything.
-/

namespace CodeToolKit.HwbrapSqlite

open CodeToolKit.SQL CodeToolKit.Lib

/-- All statements that the calls compose for a record and a channel fit into their buffers, on
each branch, with each condition that is appended.  `SetLinkInfo` and `SetRuleInfo` return before
they compose any if `0 > nChanId`. -/
structure FitsBuffers (nChanId : Int32) (r : LinkData) : Prop where
  addLinkInfo : (addLinkInfoSql r).isSome
  delLinkInfo : (delLinkInfoSql r).isSome
  getLinkInfo : (getLinkInfoSql r).isSome
  findLink : ¬0 > nChanId → (findLinkSql nChanId r).isSome
  setLinkInfo : ¬0 > nChanId → ∀ found, (setLinkInfoSql nChanId found r).isSome
  addRuleInfo : (addRuleInfoSql r).isSome
  getRuleInfo : (getRuleInfoSql r).isSome
  findRule : ¬0 > nChanId → (findRuleSql nChanId r).isSome
  setRuleInfo : ¬0 > nChanId → ∀ found, (setRuleInfoSql nChanId found r).isSome
  delRuleInfo : (delRuleInfoSql r).isSome

/-- What the strings and the numbers of a rule are long that `SetRuleInfo` writes. -/
def ruleSize (nChanId : Int32) (r : LinkData) : ℕ :=
  lengths (r.ruleStrings.map CharArray.chars) +
    widths [nChanId.toInt, r.nAnaMainType.toInt, r.nAnaSubType.toInt, r.nLineNum.toInt,
      r.nHLimit.toInt]

/-- What the strings and the numbers of a rule are long that `AddRuleInfo` writes. -/
def addedRuleSize (r : LinkData) : ℕ :=
  lengths (r.ruleStrings.map CharArray.chars) +
    widths [r.nAnaChannel.toInt, r.nAnaMainType.toInt, r.nAnaSubType.toInt, r.nLineNum.toInt]

theorem isSome_composed {ps : List Piece} : (composed ps).isSome ↔ (text ps).length < 1024 := by
  rw [Option.isSome_iff_exists]
  constructor
  · rintro ⟨szSql, h⟩
    exact (composed_eq_some.mp h).2
  · intro h
    exact ⟨_, composed_eq_some.mpr ⟨rfl, h⟩⟩

/-! ## Linkage records -/

theorem lengths_linkStrings (r : LinkData) : lengths r.linkStrings ≤ 283 := by
  have hname := r.szDevName.fits
  have hip := r.szDevIP.fits
  have hmanu := r.szDevManu.fits
  have huser := r.szLoginUser.fits
  have hpass := r.szLoginPass.fits
  simp only [LinkData.linkStrings, lengths_cons, lengths_nil]
  omega

theorem width_le (z : Int32) : width z.toInt ≤ 11 := length_decimal_le z

theorem length_insertLink (r : LinkData) : (text (insertLinkPieces r)).length < 1024 := by
  have hfixed : ((insertLinkPieces r).map Piece.fixed).sum = 75 := by
    simp only [insertLinkPieces, lit, num, field, List.map_cons, List.map_nil, Piece.fixed]
    decide +kernel
  have hnumbers : numbers (insertLinkPieces r) = [r.nAnaChannel.toInt, r.nDevPort.toInt,
    r.nDevChan.toInt, r.nPtziPos.toInt, r.nPtztPos.toInt, r.nHLimit.toInt] := rfl
  have hdata : lengths (data (insertLinkPieces r)) ≤ 283 := lengths_linkStrings r
  have hwidths : widths (numbers (insertLinkPieces r)) ≤ 66 := by
    rw [hnumbers]
    simp only [widths_cons, widths_nil]
    have := width_le r.nAnaChannel
    have := width_le r.nDevPort
    have := width_le r.nDevChan
    have := width_le r.nPtziPos
    have := width_le r.nPtztPos
    have := width_le r.nHLimit
    omega
  rw [length_text, hfixed]
  omega

theorem length_updateLimit (nChanId : Int32) (r : LinkData) :
    (text (updateLimitPieces nChanId r)).length < 1024 := by
  have hfixed : ((updateLimitPieces nChanId r).map Piece.fixed).sum = 55 := by
    simp only [updateLimitPieces, lit, num, List.map_cons, List.map_nil, Piece.fixed]
    decide +kernel
  have hwidths : widths (numbers (updateLimitPieces nChanId r)) ≤ 22 := by
    show widths [r.nHLimit.toInt, nChanId.toInt] ≤ 22
    simp only [widths_cons, widths_nil]
    have := width_le r.nHLimit
    have := width_le nChanId
    omega
  rw [length_text, hfixed]
  show 55 + _ + lengths [] < 1024
  rw [lengths_nil]
  omega

/-- The update that writes the address of the device twice. -/
theorem length_updateLink (nChanId : Int32) (r : LinkData) :
    (text (updateLinkPieces nChanId r)).length < 1024 := by
  have hfixed : ((updateLinkPieces nChanId r).map Piece.fixed).sum = 188 := by
    simp only [updateLinkPieces, updateLinkTail, lit, num, field, List.map_cons, List.map_nil,
      Piece.fixed]
    decide +kernel
  have hdata : lengths (data (updateLinkPieces nChanId r)) ≤ 283 := by
    show lengths [r.szDevIP.chars, r.szDevIP.chars, r.szDevManu.chars, r.szLoginUser.chars,
      r.szLoginPass.chars] ≤ 283
    have := r.szDevIP.fits
    have := r.szDevManu.fits
    have := r.szLoginUser.fits
    have := r.szLoginPass.fits
    simp only [lengths_cons, lengths_nil]
    omega
  have hwidths : widths (numbers (updateLinkPieces nChanId r)) ≤ 66 := by
    show widths [r.nDevPort.toInt, r.nDevChan.toInt, r.nPtziPos.toInt, r.nPtztPos.toInt,
      r.nHLimit.toInt, nChanId.toInt] ≤ 66
    simp only [widths_cons, widths_nil]
    have := width_le r.nDevPort
    have := width_le r.nDevChan
    have := width_le r.nPtziPos
    have := width_le r.nPtztPos
    have := width_le r.nHLimit
    have := width_le nChanId
    omega
  rw [length_text, hfixed]
  omega

/-- The statements of `SetLinkInfo` fit, whichever branch it takes. -/
theorem isSome_setLinkInfoSql (nChanId : Int32) (found : Bool) (r : LinkData) :
    (setLinkInfoSql nChanId found r).isSome := by
  rcases found with _ | _
  · rw [setLinkInfoSql_insert, isSome_composed]
    exact length_insertLink r
  · by_cases hlimit : r.nHLimit > 0
    · rw [setLinkInfoSql_limit nChanId hlimit, isSome_composed]
      exact length_updateLimit nChanId r
    · rw [setLinkInfoSql_update nChanId hlimit, isSome_composed]
      exact length_updateLink nChanId r

/-! ## Rules -/

theorem length_addRule (r : LinkData) :
    (text (addRulePieces r)).length = 111 + widths [r.nAnaChannel.toInt, r.nAnaMainType.toInt,
      r.nAnaSubType.toInt, r.nLineNum.toInt] + lengths (r.ruleStrings.map CharArray.chars) := by
  have hfixed : ((addRulePieces r).map Piece.fixed).sum = 111 := by
    simp only [addRulePieces, fields, LinkData.ruleStrings, lit, num, field, List.flatMap_cons,
      List.flatMap_nil, List.cons_append, List.nil_append, List.map_cons, List.map_nil, Piece.fixed]
    decide +kernel
  rw [length_text, hfixed]
  rfl

theorem length_insertRule (nChanId : Int32) (r : LinkData) :
    (text (insertRulePieces nChanId r)).length = 107 + widths [nChanId.toInt, r.nAnaMainType.toInt,
      r.nAnaSubType.toInt, r.nLineNum.toInt, r.nHLimit.toInt] +
      lengths (r.ruleStrings.map CharArray.chars) := by
  have hfixed : ((insertRulePieces nChanId r).map Piece.fixed).sum = 107 := by
    simp only [insertRulePieces, fields, LinkData.ruleStrings, lit, num, field, List.flatMap_cons,
      List.flatMap_nil, List.cons_append, List.nil_append, List.map_cons, List.map_nil, Piece.fixed]
    decide +kernel
  rw [length_text, hfixed]
  rfl

theorem length_updateRule (nChanId : Int32) (r : LinkData) :
    (text (updateRulePieces nChanId r)).length = 278 + widths [r.nLineNum.toInt, r.nHLimit.toInt,
      nChanId.toInt, r.nAnaMainType.toInt, r.nAnaSubType.toInt] +
      lengths (r.ruleStrings.map CharArray.chars) := by
  have hfixed : ((updateRulePieces nChanId r).map Piece.fixed).sum = 278 := by
    simp only [updateRulePieces, lit, num, field, List.map_cons, List.map_nil, Piece.fixed]
    decide +kernel
  rw [length_text, hfixed]
  rfl

/-- The update is the longest of the statements that write a rule. -/
theorem isSome_setRuleInfoSql_iff (nChanId : Int32) (r : LinkData) :
    (∀ found, (setRuleInfoSql nChanId found r).isSome) ↔ ruleSize nChanId r ≤ 745 := by
  rw [Bool.forall_bool, setRuleInfoSql_insert, setRuleInfoSql_update, isSome_composed,
    isSome_composed, length_insertRule, length_updateRule, ruleSize]
  simp only [widths_cons, widths_nil]
  omega

theorem isSome_addRuleInfoSql_iff (r : LinkData) :
    (addRuleInfoSql r).isSome ↔ addedRuleSize r ≤ 912 := by
  rw [addRuleInfoSql_eq, isSome_composed, length_addRule, addedRuleSize]
  omega

/-- `AddRuleInfo` writes less than the update of `SetRuleInfo`, whichever channels they have. -/
theorem addedRuleSize_le {nChanId : Int32} {r : LinkData} (h : ruleSize nChanId r ≤ 745) :
    addedRuleSize r ≤ 912 := by
  rw [ruleSize] at h
  rw [addedRuleSize]
  simp only [widths_cons, widths_nil] at h ⊢
  have := width_le r.nAnaChannel
  omega

/-- What decides is the statements that write a rule. -/
theorem fitsBuffers_of_rules {nChanId : Int32} {r : LinkData} (hadd : (addRuleInfoSql r).isSome)
    (hset : ¬0 > nChanId → ∀ found, (setRuleInfoSql nChanId found r).isSome) :
    FitsBuffers nChanId r where
  addLinkInfo := by
    rw [addLinkInfoSql_eq, isSome_composed]
    exact length_insertLink r
  delLinkInfo := by rw [delLinkInfoSql_eq, Option.isSome_some]
  getLinkInfo := by rw [getLinkInfoSql_eq, Option.isSome_some]
  findLink _ := by rw [findLinkSql_eq, Option.isSome_some]
  setLinkInfo _ found := isSome_setLinkInfoSql nChanId found r
  addRuleInfo := hadd
  getRuleInfo := by rw [getRuleInfoSql_eq, Option.isSome_some]
  findRule _ := by rw [findRuleSql_eq, Option.isSome_some]
  setRuleInfo := hset
  delRuleInfo := by rw [delRuleInfoSql_eq, Option.isSome_some]

/-- **The statements fit into their buffers exactly for short rules**: of at most 745 characters, or
912 of those that `AddRuleInfo` writes if the channel is negative. -/
theorem fitsBuffers_iff (nChanId : Int32) (r : LinkData) :
    FitsBuffers nChanId r ↔
      if 0 > nChanId then addedRuleSize r ≤ 912 else ruleSize nChanId r ≤ 745 := by
  by_cases hchan : 0 > nChanId
  · rw [if_pos hchan, ← isSome_addRuleInfoSql_iff]
    exact ⟨fun h ↦ h.addRuleInfo, fun h ↦ fitsBuffers_of_rules h fun hnot ↦ absurd hchan hnot⟩
  · rw [if_neg hchan, ← isSome_setRuleInfoSql_iff]
    constructor
    · intro h
      exact h.setRuleInfo hchan
    · intro h
      have hsize : ruleSize nChanId r ≤ 745 := (isSome_setRuleInfoSql_iff nChanId r).mp h
      have hadd : (addRuleInfoSql r).isSome :=
        (isSome_addRuleInfoSql_iff r).mpr (addedRuleSize_le hsize)
      exact fitsBuffers_of_rules hadd fun _ ↦ h

/-- A rule whose strings are full. -/
def fullRule : LinkData :=
  { LinkData.zero with
    szBZSLineType := fun _ ↦ ⟨List.replicate 255 'x', by decide +kernel, by decide +kernel⟩ }

/-- Five full strings are more than the buffer can hold. -/
theorem not_fitsBuffers : ¬∀ nChanId r, FitsBuffers nChanId r := by
  intro h
  exact absurd ((fitsBuffers_iff 1 fullRule).mp (h 1 fullRule)) (by decide +kernel)

end CodeToolKit.HwbrapSqlite
