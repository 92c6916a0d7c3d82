import Mathlib.Data.List.TakeDrop
import Mathlib.Order.Lattice
import Mathlib.Data.Nat.Notation

/-!
# Reading through a buffer

A reader of some number of elements looks for the next ones, takes of them what it needs, and
looks again.  How a stream is cut into reads does not matter as long as what was not taken is
found again: a read of `a + b` elements is a read of `a` and then a read of `b`
(`Reads.append`, `Reads.split`).
-/

namespace CodeToolKit.Lib

/-- What a reader finds: elements, and the state after some of them were taken; nothing yet;
nothing more; or a failure. -/
inductive Supply (σ α ε : Type) where
  | elements (data : List α) (after : ℕ → σ)
  | again (s : σ)
  | stop (s : σ)
  | fail (e : ε)

namespace Reader

variable {σ α ε : Type} (next : σ → Supply σ α ε)

/-- Reading up to `len` elements, in a number of steps. -/
def read (endless : ε) : ℕ → ℕ → σ → Except ε (List α × σ)
  | 0, _, _ => .error endless
  | fuel + 1, len, s =>
      if len = 0 then .ok ([], s)
      else match next s with
        | .elements data after =>
            (read endless fuel (len - min len data.length) (after (min len data.length))).map
              fun r ↦ (data.take len ++ r.1, r.2)
        | .again s => read endless fuel len s
        | .stop s => .ok ([], s)
        | .fail e => .error e

/-- A read of up to `len` elements that ends. -/
inductive Reads : ℕ → σ → List α → σ → Prop
  | done (s : σ) : Reads 0 s [] s
  | elements {len : ℕ} {s s' : σ} {data d : List α} {after : ℕ → σ} (hlen : 0 < len)
      (h : next s = .elements data after)
      (hrest : Reads (len - min len data.length) (after (min len data.length)) d s') :
      Reads len s (data.take len ++ d) s'
  | again {len : ℕ} {s s' t : σ} {d : List α} (hlen : 0 < len) (h : next s = .again t)
      (hrest : Reads len t d s') : Reads len s d s'
  | stop {len : ℕ} {s t : σ} (hlen : 0 < len) (h : next s = .stop t) : Reads len s [] t

variable {next} {endless : ε} {len a b : ℕ} {s s' t u : σ} {d d' : List α}

theorem reads_of_read {fuel : ℕ} (h : read next endless fuel len s = .ok (d, s')) :
    Reads next len s d s' := by
  induction fuel generalizing len s d with
  | zero => cases h
  | succ fuel ih =>
      rw [read] at h
      split at h
      · rename_i hlen
        cases h
        rw [hlen]
        exact .done _
      · rename_i hlen
        have hpos := Nat.pos_of_ne_zero hlen
        split at h
        · rename_i data after hnext
          cases hread : read next endless fuel (len - min len data.length)
            (after (min len data.length)) with
          | error e =>
              rw [hread] at h
              cases h
          | ok r =>
              rw [hread] at h
              cases h
              exact .elements hpos hnext (ih hread)
        · rename_i t hnext
          exact .again hpos hnext (ih h)
        · rename_i t hnext
          cases h
          exact .stop hpos hnext
        · cases h

/-- Steps enough for a read that ends. -/
theorem Reads.exists_read (endless : ε) (h : Reads next len s d s') :
    ∃ enough, ∀ fuel ≥ enough, read next endless fuel len s = .ok (d, s') := by
  induction h with
  | done s =>
      refine ⟨1, fun fuel hfuel ↦ ?_⟩
      obtain ⟨fuel, rfl⟩ := Nat.exists_eq_add_of_le' hfuel
      rw [read, if_pos rfl]
  | elements hlen hnext _ ih =>
      obtain ⟨enough, ih⟩ := ih
      refine ⟨enough + 1, fun fuel hfuel ↦ ?_⟩
      obtain ⟨fuel, rfl⟩ := Nat.exists_eq_add_of_le' (Nat.le_of_add_left_le hfuel)
      rw [read, if_neg hlen.ne', hnext]
      dsimp only
      rw [ih fuel (by omega)]
      rfl
  | again hlen hnext _ ih =>
      obtain ⟨enough, ih⟩ := ih
      refine ⟨enough + 1, fun fuel hfuel ↦ ?_⟩
      obtain ⟨fuel, rfl⟩ := Nat.exists_eq_add_of_le' (Nat.le_of_add_left_le hfuel)
      rw [read, if_neg hlen.ne', hnext]
      exact ih fuel (by omega)
  | stop hlen hnext =>
      refine ⟨1, fun fuel hfuel ↦ ?_⟩
      obtain ⟨fuel, rfl⟩ := Nat.exists_eq_add_of_le' hfuel
      rw [read, if_neg hlen.ne', hnext]

/-- No more is read than was asked for. -/
theorem Reads.length_le (h : Reads next len s d s') : d.length ≤ len := by
  induction h with
  | done => exact Nat.le_refl 0
  | elements _ _ _ ih =>
      rw [List.length_append, List.length_take]
      omega
  | again _ _ _ ih => exact ih
  | stop => exact Nat.zero_le _

theorem Reads.eq_of_zero (h : Reads next 0 s d s') : d = [] ∧ s' = s := by
  cases h with
  | done => exact ⟨rfl, rfl⟩
  | elements hlen => cases hlen
  | again hlen => cases hlen
  | stop hlen => cases hlen

/-- A property of the states that every step keeps. -/
structure Invariant (next : σ → Supply σ α ε) (I : σ → Prop) : Prop where
  elements : ∀ {s data after}, I s → next s = .elements data after →
    ∀ n ≤ data.length, I (after n)
  again : ∀ {s t}, I s → next s = .again t → I t
  stop : ∀ {s t}, I s → next s = .stop t → I t

theorem Reads.invariant {I : σ → Prop} (hI : Invariant next I) (h : Reads next len s d s')
    (hs : I s) : I s' := by
  induction h with
  | done => exact hs
  | elements _ hnext _ ih => exact ih (hI.elements hs hnext _ (Nat.min_le_right ..))
  | again _ hnext _ ih => exact ih (hI.again hs hnext)
  | stop _ hnext => exact hI.stop hs hnext

/-- A read fails only as a step fails. -/
theorem read_ne_error {I : σ → Prop} {e : ε} {fuel : ℕ} (hI : Invariant next I) (hs : I s)
    (hfail : ∀ s, I s → next s ≠ .fail e) (he : e ≠ endless) :
    read next endless fuel len s ≠ .error e := by
  induction fuel generalizing len s with
  | zero => exact fun h ↦ he (Except.error.inj h).symm
  | succ fuel ih =>
      rw [read]
      split
      · exact fun h ↦ (by cases h)
      · split
        · rename_i data after hnext
          have hrest : read next endless fuel (len - min len data.length)
              (after (min len data.length)) ≠ .error e :=
            ih (hI.elements hs hnext _ (Nat.min_le_right len data.length))
          intro h
          cases hread : read next endless fuel (len - min len data.length)
            (after (min len data.length)) with
          | error e' =>
              rw [hread] at h
              cases h
              exact hrest hread
          | ok r =>
              rw [hread] at h
              cases h
        · rename_i hnext
          exact ih (hI.again hs hnext)
        · exact fun h ↦ (by cases h)
        · rename_i hnext
          intro h
          cases h
          exact hfail _ hs hnext

/-- What is not taken is found again. -/
def Coherent (next : σ → Supply σ α ε) : Prop :=
  ∀ ⦃s data after⦄, next s = .elements data after → ∀ n < data.length,
    next (after n) = .elements (data.drop n) fun k ↦ after (n + k)

/-- Two reads in a row, of which the first one is full, are one read. -/
theorem Reads.append (hnext : Coherent next) (h : Reads next a s d t) (hfull : d.length = a)
    (h' : Reads next b t d' u) : Reads next (a + b) s (d ++ d') u := by
  induction h with
  | done s => rwa [Nat.zero_add]
  | @elements a s t data d after hlen hs hrest ih =>
      rw [List.length_append, List.length_take] at hfull
      rw [List.append_assoc]
      rcases Nat.lt_or_ge a data.length with hlt | hge
      · -- the first read ends within the elements that were found
        rw [Nat.min_eq_left hlt.le, Nat.sub_self] at hrest
        obtain ⟨rfl, rfl⟩ := hrest.eq_of_zero
        rw [List.nil_append]
        rcases Nat.eq_zero_or_pos b with rfl | hb
        · obtain ⟨rfl, rfl⟩ := h'.eq_of_zero
          rw [List.append_nil, Nat.add_zero]
          have hdone : Reads next (a - min a data.length) (after (min a data.length)) []
              (after a) := by
            rw [Nat.min_eq_left hlt.le, Nat.sub_self]
            exact .done _
          simpa using Reads.elements hlen hs hdone
        · have hfound := hnext hs a hlt
          cases h' with
          | done => cases hb
          | again _ h => cases hfound.symm.trans h
          | stop _ h => cases hfound.symm.trans h
          | @elements _ _ _ data' d' after' _ h hrest' =>
              obtain ⟨rfl, rfl⟩ : data.drop a = data' ∧ (fun k ↦ after (a + k)) = after' := by
                cases hfound.symm.trans h
                exact ⟨rfl, rfl⟩
              rw [List.length_drop] at hrest'
              have hmin : min (a + b) data.length = a + min b (data.length - a) := by omega
              have hrest : Reads next (a + b - min (a + b) data.length)
                  (after (min (a + b) data.length)) d' u := by
                rw [hmin, Nat.add_sub_add_left]
                exact hrest'
              have hread := Reads.elements (Nat.add_pos_left hlen b) hs hrest
              rwa [List.take_add, List.append_assoc] at hread
      · -- it takes all of them
        have hall := ih (by omega) h'
        have hmin : min (a + b) data.length = min a data.length := by omega
        have hsub : a + b - min a data.length = a - min a data.length + b := by omega
        have htake : data.take (a + b) = data.take a := by
          rw [List.take_of_length_le (by omega), List.take_of_length_le hge]
        rw [← htake]
        exact .elements (Nat.add_pos_left hlen b) hs (by rw [hmin, hsub]; exact hall)
  | again hlen hs _ ih => exact .again (Nat.add_pos_left hlen b) hs (ih hfull h')
  | stop hlen => exact absurd hfull hlen.ne

/-- A short read is the same when more was asked for. -/
theorem Reads.of_short (h : Reads next a s d t) (hshort : d.length < a) (b : ℕ) :
    Reads next (a + b) s d t := by
  induction h with
  | done => cases hshort
  | @elements a s t data d after hlen hs _ ih =>
      rw [List.length_append, List.length_take] at hshort
      have hmin : min (a + b) data.length = min a data.length := by omega
      have hsub : a + b - min a data.length = a - min a data.length + b := by omega
      have htake : data.take (a + b) = data.take a := by
        rw [List.take_of_length_le (by omega), List.take_of_length_le (by omega)]
      rw [← htake]
      exact .elements (Nat.add_pos_left hlen b) hs (by rw [hmin, hsub]; exact ih (by omega))
  | again hlen hs _ ih => exact .again (Nat.add_pos_left hlen b) hs (ih hshort)
  | stop hlen hs => exact .stop (Nat.add_pos_left hlen b) hs

/-- A read begins with a read of fewer elements: a full one, which another read continues, or one
that ends it. -/
theorem Reads.split (hnext : Coherent next) (h : Reads next (a + b) s d u) :
    ∃ d₁ t, Reads next a s d₁ t ∧
      ((d₁.length < a ∧ d₁ = d ∧ t = u) ∨
        (d₁.length = a ∧ ∃ d₂, d = d₁ ++ d₂ ∧ Reads next b t d₂ u)) := by
  generalize hab : a + b = len at h
  induction h generalizing a with
  | done s =>
      obtain ⟨rfl, rfl⟩ := Nat.add_eq_zero_iff.mp hab
      exact ⟨[], s, .done s, .inr ⟨rfl, [], rfl, .done s⟩⟩
  | @elements len s u data d after hlen hs hrest ih =>
      rcases Nat.eq_zero_or_pos a with rfl | ha
      · obtain rfl : b = len := (Nat.zero_add b).symm.trans hab
        exact ⟨[], s, .done s, .inr ⟨rfl, _, rfl, .elements hlen hs hrest⟩⟩
      · rcases Nat.lt_or_ge a data.length with hlt | hge
        · -- the fewer elements are some of those that were found
          have hdone : Reads next (a - min a data.length) (after (min a data.length)) []
              (after a) := by
            rw [Nat.min_eq_left hlt.le, Nat.sub_self]
            exact .done _
          have hfirst := Reads.elements ha hs hdone
          rw [List.append_nil] at hfirst
          have hlength : (data.take a).length = a := by
            rw [List.length_take, Nat.min_eq_left hlt.le]
          refine ⟨_, _, hfirst, .inr ⟨hlength, (data.drop a).take b ++ d, ?_, ?_⟩⟩
          · rw [← hab, List.take_add, List.append_assoc]
          · rcases Nat.eq_zero_or_pos b with rfl | hb
            · have hmin : min len data.length = a := by omega
              rw [hmin, ← hab, Nat.add_zero, Nat.sub_self] at hrest
              obtain ⟨rfl, rfl⟩ := hrest.eq_of_zero
              exact .done _
            · have hmin : min len data.length = a + min b (data.drop a).length := by
                rw [List.length_drop]
                omega
              refine .elements hb (hnext hs a hlt) ?_
              rw [hmin, ← hab, Nat.add_sub_add_left] at hrest
              exact hrest
        · -- all that were found are among the fewer
          have hmin : min len data.length = min a data.length := by omega
          rw [hmin] at hrest ih
          obtain ⟨d₁, t, hread, hend⟩ := ih (a := a - min a data.length) (by omega)
          have hfirst := Reads.elements ha hs hread
          rw [List.take_of_length_le hge] at hfirst
          rw [List.take_of_length_le (by omega : data.length ≤ len)]
          refine ⟨_, t, hfirst, ?_⟩
          rw [List.length_append]
          rcases hend with ⟨hshort, rfl, rfl⟩ | ⟨hfull, d₂, rfl, hsecond⟩
          · exact .inl ⟨by omega, rfl, rfl⟩
          · exact .inr ⟨by omega, d₂, (List.append_assoc ..).symm, hsecond⟩
  | @again len s u t d hlen hs hrest ih =>
      rcases Nat.eq_zero_or_pos a with rfl | ha
      · obtain rfl : b = len := (Nat.zero_add b).symm.trans hab
        exact ⟨[], s, .done s, .inr ⟨rfl, _, rfl, .again hlen hs hrest⟩⟩
      · obtain ⟨d₁, t', hread, hend⟩ := ih hab
        exact ⟨d₁, t', .again ha hs hread, hend⟩
  | @stop len s t hlen hs =>
      rcases Nat.eq_zero_or_pos a with rfl | ha
      · obtain rfl : b = len := (Nat.zero_add b).symm.trans hab
        exact ⟨[], s, .done s, .inr ⟨rfl, _, rfl, .stop hlen hs⟩⟩
      · exact ⟨[], t, .stop ha hs, .inl ⟨ha, rfl, rfl⟩⟩

/-- A reader delivers a content from a position on, if at every position it finds some of what
follows, and nothing more at the end. -/
theorem reads_of_content {content : List α} {At : ℕ → σ → Prop}
    (hnext : ∀ pos s, At pos s → (∃ data after rest, next s = .elements data after ∧ data ≠ [] ∧
        content.drop pos = data ++ rest ∧ ∀ n ≤ data.length, At (pos + n) (after n)) ∨
      (content.length ≤ pos ∧ ∃ t, next s = .stop t ∧ At pos t))
    (len pos : ℕ) (hs : At pos s) :
    ∃ t, Reads next len s ((content.drop pos).take len) t ∧
      At (pos + ((content.drop pos).take len).length) t := by
  induction len using Nat.strong_induction_on generalizing pos s with
  | _ len ih =>
      rcases Nat.eq_zero_or_pos len with rfl | hlen
      · rw [List.take_zero]
        exact ⟨s, .done s, hs⟩
      · rcases hnext pos s hs with ⟨data, after, rest, hfound, hne, hdrop, hafter⟩ |
          ⟨hend, t, hstop, ht⟩
        · have hpos : 0 < data.length := List.length_pos_iff.mpr hne
          have hrest : content.drop (pos + data.length) = rest := by
            rw [← List.drop_drop, hdrop, List.drop_left]
          rcases Nat.lt_or_ge data.length len with hlt | hge
          · have hmin : min len data.length = data.length := Nat.min_eq_right hlt.le
            obtain ⟨t, hread, ht⟩ := ih (len - data.length) (by omega) (pos + data.length)
              (hafter data.length (Nat.le_refl _))
            have htake : (content.drop pos).take len = data.take len ++
                (content.drop (pos + data.length)).take (len - data.length) := by
              rw [hdrop, hrest, List.take_append]
            refine ⟨t, ?_, ?_⟩
            · rw [htake]
              exact .elements hlen hfound (by rw [hmin]; exact hread)
            · rw [htake, List.length_append, List.take_of_length_le hlt.le, ← Nat.add_assoc]
              exact ht
          · have hmin : min len data.length = len := Nat.min_eq_left hge
            have htake : (content.drop pos).take len = data.take len := by
              rw [hdrop, List.take_append_of_le_length hge]
            refine ⟨after len, ?_, ?_⟩
            · have hread : Reads next len s (data.take len ++ []) (after len) :=
                .elements hlen hfound (by rw [hmin, Nat.sub_self]; exact .done _)
              rwa [List.append_nil, ← htake] at hread
            · rw [htake, List.length_take, hmin]
              exact hafter len hge
        · rw [List.drop_eq_nil_of_le hend, List.take_nil]
          exact ⟨t, .stop hlen hstop, ht⟩

end Reader

end CodeToolKit.Lib
