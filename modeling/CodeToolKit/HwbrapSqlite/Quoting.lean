import CodeToolKit.HwbrapSqlite.Pieces

/-!
# Data in the composed statements

The statements that write records put strings between quotes without doubling the quotes
in them.  A statement keeps its tokens, and the strings stand for themselves, exactly for records
whose strings do not have the quote that the format uses (`sameTokens_iff`).  The general update
of `SetLinkInfo` also needs the device name to be the device address, which it writes for both.
-/

namespace CodeToolKit.HwbrapSqlite

open CodeToolKit.SQL CodeToolKit.Lib

/-- The functions that put strings into their statements, with the branch they take. -/
inductive Composer where
  | addLinkInfo
  | setLinkInfo (nChanId : Int32) (found : Bool)
  | setRuleInfo (nChanId : Int32) (found : Bool)

namespace Composer

/-- The statement that is executed. -/
def sql : Composer → LinkData → Option (List Char)
  | addLinkInfo, r => addLinkInfoSql r
  | setLinkInfo nChanId found, r => setLinkInfoSql nChanId found r
  | setRuleInfo nChanId found, r => setRuleInfoSql nChanId found r

/-- The statement by its pieces. -/
def pieces : Composer → LinkData → List Piece
  | addLinkInfo, r => insertLinkPieces r
  | setLinkInfo nChanId found, r =>
      if !found then insertLinkPieces r
      else if r.nHLimit > 0 then updateLimitPieces nChanId r
      else updateLinkPieces nChanId r
  | setRuleInfo nChanId found, r =>
      if !found then insertRulePieces nChanId r else updateRulePieces nChanId r

end Composer

namespace Composer

/-- The strings of the record can be put into the statement as they are. -/
def Safe : Composer → LinkData → Prop
  | addLinkInfo, r | setLinkInfo _ false, r => ∀ s ∈ r.linkStrings, '"' ∉ s
  | setLinkInfo _ true, r =>
      r.nHLimit > 0 ∨
        (∀ s ∈ r.linkStrings, '\'' ∉ s) ∧ r.szDevIP.chars = r.szDevName.chars
  | setRuleInfo _ _, r => ∀ s ∈ r.ruleStrings, '\'' ∉ s.chars

instance : ∀ (c : Composer) (r : LinkData), Decidable (c.Safe r)
  | addLinkInfo, r | setLinkInfo _ false, r =>
      inferInstanceAs (Decidable (∀ s ∈ r.linkStrings, '"' ∉ s))
  | setLinkInfo _ true, r =>
      inferInstanceAs (Decidable (r.nHLimit > 0 ∨
        (∀ s ∈ r.linkStrings, '\'' ∉ s) ∧ r.szDevIP.chars = r.szDevName.chars))
  | setRuleInfo _ _, r => inferInstanceAs (Decidable (∀ s ∈ r.ruleStrings, '\'' ∉ s.chars))

end Composer

/-! ## One record -/

theorem plain_insertLink (r : LinkData) : ∀ p ∈ insertLinkPieces r, p.Plain := by
  simp [insertLinkPieces, lit, num, field, Piece.Plain]

theorem plain_insertRule (nChanId : Int32) (r : LinkData) :
    ∀ p ∈ insertRulePieces nChanId r, p.Plain := by
  simp [insertRulePieces, fields, LinkData.ruleStrings, lit, num, field, Piece.Plain]

theorem plain_updateRule (nChanId : Int32) (r : LinkData) :
    ∀ p ∈ updateRulePieces nChanId r, p.Plain := by
  simp [updateRulePieces, lit, num, field, Piece.Plain]

theorem lex_insertLink_iff (r : LinkData) :
    lex (text (insertLinkPieces r)) = tokens (insertLinkPieces r) ↔
      ∀ s ∈ r.linkStrings, '"' ∉ s :=
  lex_text_iff rfl (joins_insertLink r) (tight_insertLink r) (plain_insertLink r)

theorem lex_updateLimit (nChanId : Int32) (r : LinkData) :
    lex (text (updateLimitPieces nChanId r)) = tokens (updateLimitPieces nChanId r) := by
  refine lex_text (joins_updateLimit nChanId r) ?_
  simp [updateLimitPieces, lit, num, Piece.Safe]

theorem lex_insertRule_iff (nChanId : Int32) (r : LinkData) :
    lex (text (insertRulePieces nChanId r)) = tokens (insertRulePieces nChanId r) ↔
      ∀ s ∈ r.ruleStrings, '\'' ∉ s.chars := by
  rw [lex_text_iff (q := '\'') rfl (joins_insertRule nChanId r) (tight_insertRule nChanId r)
    (plain_insertRule nChanId r)]
  exact List.forall_mem_map (l := r.ruleStrings)

theorem lex_updateRule_iff (nChanId : Int32) (r : LinkData) :
    lex (text (updateRulePieces nChanId r)) = tokens (updateRulePieces nChanId r) ↔
      ∀ s ∈ r.ruleStrings, '\'' ∉ s.chars := by
  rw [lex_text_iff (q := '\'') rfl (joins_updateRule nChanId r) (tight_updateRule nChanId r)
    (plain_updateRule nChanId r)]
  exact List.forall_mem_map (l := r.ruleStrings)

theorem plain_updateLinkTail (nChanId : Int32) (r : LinkData) :
    ∀ p ∈ updateLinkTail nChanId r, p.Plain := by
  simp [updateLinkTail, lit, num, field, Piece.Plain]

theorem tight_updateLinkTail (nChanId : Int32) (r : LinkData) :
    ∀ p ∈ updateLinkTail nChanId r, p.tight '\'' := List.all_eq_true.mp rfl

theorem forall_mem_linkStrings {q : Char} {r : LinkData} :
    (∀ s ∈ r.linkStrings, q ∉ s) ↔
      q ∉ r.szDevName.chars ∧ q ∉ r.szDevIP.chars ∧
        ∀ s ∈ [r.szDevManu.chars, r.szLoginUser.chars, r.szLoginPass.chars], q ∉ s := by
  rw [LinkData.linkStrings, List.forall_mem_cons, List.forall_mem_cons]

/-- The update that writes the address of the device for its name, too. -/
theorem lex_updateLink_iff (nChanId : Int32) (r : LinkData) :
    lex (text (updateLinkPieces nChanId r)) = tokens (updateLinkPieces nChanId r) ↔
      (∀ s ∈ r.linkStrings, '\'' ∉ s) ∧ r.szDevIP.chars = r.szDevName.chars := by
  have hsafeTail : (∀ s ∈ data (updateLinkTail nChanId r), '\'' ∉ s) →
      ∀ p ∈ updateLinkTail nChanId r, p.Safe :=
    safe_of_data rfl (tight_updateLinkTail nChanId r) (plain_updateLinkTail nChanId r)
  rw [forall_mem_linkStrings]
  constructor
  · intro h
    have hle := two_mul_meant_le (q := '\'') rfl (tight_updateLink nChanId r) h
    have hmeant : meant '\'' (updateLinkPieces nChanId r) = r.szDevName.chars.count '\'' +
        (r.szDevIP.chars.count '\'' + written '\'' (updateLinkTail nChanId r)) := by
      rw [← meant_eq_written (plain_updateLinkTail nChanId r)]
      simp [updateLinkPieces, meant_cons, lit, Piece.meant]
    have hwritten : written '\'' (updateLinkPieces nChanId r) = r.szDevIP.chars.count '\'' +
        (r.szDevIP.chars.count '\'' + written '\'' (updateLinkTail nChanId r)) := by
      simp [updateLinkPieces, written_cons, lit, Piece.written]
    rw [hmeant, hwritten] at hle
    have hname : '\'' ∉ r.szDevName.chars := List.count_eq_zero.mp (by omega)
    have htail : ∀ s ∈ data (updateLinkTail nChanId r), '\'' ∉ s :=
      written_eq_zero_iff.mp (by omega)
    have hsep : lit ", deviceip = " = .lit (", deviceip =".toList ++ [' ']) := by decide
    have hjoins := joins_updateLink nChanId r
    have htight := tight_updateLink nChanId r
    rw [updateLinkPieces, hsep] at h hjoins htight
    have heq := eq_of_repeated rfl (by decide) (by decide) (by decide) hjoins htight
      (hsafeTail htail) hname h
    exact ⟨⟨hname, heq.2, htail⟩, heq.1⟩
  · rintro ⟨⟨-, hip, htail⟩, hname⟩
    refine lex_text (joins_updateLink nChanId r) ?_
    rw [updateLinkPieces]
    simp only [List.forall_mem_cons]
    exact ⟨trivial, ⟨rfl, hip, hname⟩, trivial, ⟨rfl, hip, rfl⟩, hsafeTail htail⟩

namespace Composer

theorem sql_eq (c : Composer) (r : LinkData) : c.sql r = composed (c.pieces r) := by
  rcases c with _ | ⟨nChanId, _ | _⟩ | ⟨nChanId, _ | _⟩
  · exact addLinkInfoSql_eq r
  · exact setLinkInfoSql_insert nChanId r
  · show setLinkInfoSql nChanId true r = composed
      (if r.nHLimit > 0 then updateLimitPieces nChanId r else updateLinkPieces nChanId r)
    split
    · exact setLinkInfoSql_limit nChanId ‹_›
    · exact setLinkInfoSql_update nChanId ‹_›
  · exact setRuleInfoSql_insert nChanId r
  · exact setRuleInfoSql_update nChanId r

/-- The statement has the tokens that are meant exactly for safe records. -/
theorem lex_text_pieces_iff (c : Composer) (r : LinkData) :
    lex (text (c.pieces r)) = tokens (c.pieces r) ↔ c.Safe r := by
  rcases c with _ | ⟨nChanId, _ | _⟩ | ⟨nChanId, _ | _⟩
  · exact lex_insertLink_iff r
  · exact lex_insertLink_iff r
  · by_cases hlimit : r.nHLimit > 0
    · have hpieces : (setLinkInfo nChanId true).pieces r = updateLimitPieces nChanId r :=
        if_pos hlimit
      rw [hpieces]
      exact iff_of_true (lex_updateLimit nChanId r) (.inl hlimit)
    · have hpieces : (setLinkInfo nChanId true).pieces r = updateLinkPieces nChanId r :=
        if_neg hlimit
      rw [hpieces, lex_updateLink_iff]
      exact (or_iff_right hlimit).symm
  · exact lex_insertRule_iff nChanId r
  · exact lex_updateRule_iff nChanId r

/-! ## Two records -/

/-- Without their strings the statements depend on the integers only. -/
theorem shape_pieces (c : Composer) {r r' : LinkData} (h : r.SameInts r') :
    (c.pieces r).map Piece.shape = (c.pieces r').map Piece.shape := by
  have hlink : (insertLinkPieces r).map Piece.shape = (insertLinkPieces r').map Piece.shape := by
    simp [insertLinkPieces, lit, num, field, Piece.shape, h.nAnaChannel, h.nDevPort, h.nDevChan,
      h.nPtziPos, h.nPtztPos, h.nHLimit]
  rcases c with _ | ⟨nChanId, _ | _⟩ | ⟨nChanId, _ | _⟩
  · exact hlink
  · exact hlink
  · show (if r.nHLimit > 0 then updateLimitPieces nChanId r
      else updateLinkPieces nChanId r).map Piece.shape =
      (if r'.nHLimit > 0 then updateLimitPieces nChanId r'
        else updateLinkPieces nChanId r').map Piece.shape
    rw [h.nHLimit]
    split
    · simp [updateLimitPieces, lit, num, Piece.shape, h.nHLimit]
    · simp [updateLinkPieces, updateLinkTail, lit, num, field, Piece.shape, h.nDevPort,
        h.nDevChan, h.nPtziPos, h.nPtztPos, h.nHLimit]
  · show (insertRulePieces nChanId r).map Piece.shape =
      (insertRulePieces nChanId r').map Piece.shape
    simp [insertRulePieces, fields, LinkData.ruleStrings, lit, num, field, Piece.shape,
      h.nAnaMainType, h.nAnaSubType, h.nLineNum, h.nHLimit]
  · show (updateRulePieces nChanId r).map Piece.shape =
      (updateRulePieces nChanId r').map Piece.shape
    simp [updateRulePieces, lit, num, field, Piece.shape, h.nAnaMainType, h.nAnaSubType,
      h.nLineNum, h.nHLimit]

/-- The two statements have the same tokens up to the data between quotes, and the data of each
is what the fields of its record are. -/
structure SameTokens (c : Composer) (r r' : LinkData) (szSql szSql' : List Char) : Prop where
  shape : (lex szSql).map Token.shape = (lex szSql').map Token.shape
  values : lex szSql = tokens (c.pieces r)
  values' : lex szSql' = tokens (c.pieces r')

/-- **The strings of records change nothing but themselves exactly if they can be put between
the quotes as they are.** -/
theorem sameTokens_iff (c : Composer) {r r' : LinkData} (h : r.SameInts r')
    {szSql szSql' : List Char} (hsql : c.sql r = some szSql) (hsql' : c.sql r' = some szSql') :
    c.SameTokens r r' szSql szSql' ↔ c.Safe r ∧ c.Safe r' := by
  rw [sql_eq, composed_eq_some] at hsql hsql'
  rcases hsql with ⟨rfl, -⟩
  rcases hsql' with ⟨rfl, -⟩
  rw [← lex_text_pieces_iff, ← lex_text_pieces_iff]
  constructor
  · rintro ⟨-, hvalues, hvalues'⟩
    exact ⟨hvalues, hvalues'⟩
  · rintro ⟨hvalues, hvalues'⟩
    refine ⟨?_, hvalues, hvalues'⟩
    rw [hvalues, hvalues']
    exact map_shape_tokens (c.shape_pieces h)

/-- The record of the test program with another password. -/
def withPass (szLoginPass : CharArray 64) : LinkData := { LinkData.testInfo with szLoginPass }

theorem sameInts_withPass (s s' : CharArray 64) : (withPass s).SameInts (withPass s') :=
  ⟨rfl, rfl, rfl, rfl, rfl, rfl, rfl, rfl, rfl, rfl⟩

theorem sql_withPass {s : CharArray 64} (h : (text (insertLinkPieces (withPass s))).length < 1024) :
    addLinkInfo.sql (withPass s) = some (text (insertLinkPieces (withPass s))) :=
  (sql_eq _ _).trans (composed_eq_some.mpr ⟨rfl, h⟩)

/-- Two records without double quotes. -/
theorem sameTokens_apostrophe :
    addLinkInfo.SameTokens (withPass ⟨"pass'word".toList, by decide, by decide⟩)
      (withPass ⟨[], rfl, by decide⟩)
      (text (insertLinkPieces (withPass ⟨"pass'word".toList, by decide, by decide⟩)))
      (text (insertLinkPieces (withPass ⟨[], rfl, by decide⟩))) :=
  (sameTokens_iff addLinkInfo (sameInts_withPass _ _) (sql_withPass (by decide +kernel))
    (sql_withPass (by decide +kernel))).mpr ⟨by decide, by decide⟩

/-- Not for all records: a double quote in a password ends the token. -/
theorem not_sameTokens : ¬∀ (c : Composer) (r r' : LinkData), r.SameInts r' →
    ∀ szSql szSql', c.sql r = some szSql → c.sql r' = some szSql' →
      c.SameTokens r r' szSql szSql' := by
  intro h
  have hsame := h addLinkInfo (withPass ⟨"pass\"word".toList, by decide, by decide⟩)
    (withPass ⟨[], rfl, by decide⟩) (sameInts_withPass _ _) _ _ (sql_withPass (by decide +kernel))
    (sql_withPass (by decide +kernel))
  have hsafe := (addLinkInfo.lex_text_pieces_iff _).mp hsame.values
  exact hsafe "pass\"word".toList (by decide) (by decide)

end Composer

end CodeToolKit.HwbrapSqlite
