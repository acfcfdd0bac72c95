import CouchClient.Text.Basic

/-! # Pieces — texts that are joined, and taken apart again

    Pieces that are joined with a sign between them are found again where
    the text is split at that sign, as long as none of them holds it.

    * `splitOn_join` — pieces that are joined are found again;
    * `getLast?_splitOn` — what stands behind the last sign is the last piece;
    * `cut_append_cons`, `cut_of_not_mem` — a text before and after a sign;
    * `strip_surrounded`, `surrounded_of_strip` — a text between signs that
      are stripped. -/

namespace CouchClient.Text

variable {sep : CodePoint} {t u : Text} {pieces : List Text}

/-! ## Splitting and joining -/

theorem splitOn_eq (sep : CodePoint) (t : Text) :
    splitOn sep t = List.splitOn sep t := by
  induction t with
  | nil => rfl
  | cons c t ih =>
      show _ = List.splitOnP (· == sep) (c :: t)
      rw [splitOn, ih, List.splitOnP_cons_eq_if_modifyHead]
      simp only [beq_iff_eq]
      rfl

/-- Pieces without the sign between them are found again. -/
theorem splitOn_join (hne : pieces ≠ []) (h : ∀ piece ∈ pieces, sep ∉ piece) :
    splitOn sep (join [sep] pieces) = pieces := by
  rw [splitOn_eq]
  exact List.splitOn_intercalate sep h hne

/-- A text without the separator is one piece. -/
theorem splitOn_of_not_mem (h : sep ∉ t) : splitOn sep t = [t] := by
  have hjoin := @splitOn_join sep [t] (List.cons_ne_nil t []) (by simpa using h)
  rwa [join, List.intercalate_singleton] at hjoin

/-- What stands behind the last sign is the last piece. -/
theorem getLast?_splitOn (h : sep ∉ u) (t : Text) :
    (splitOn sep (t ++ sep :: u)).getLast? = some u := by
  have hpieces : splitOn sep (t ++ sep :: u) = splitOn sep t ++ splitOn sep u := by
    simp only [splitOn_eq]
    exact List.splitOnP_append_cons t u (beq_self_eq_true sep)
  rw [hpieces, splitOn_of_not_mem h, List.getLast?_concat]

/-- Two pieces are joined with the separator between them. -/
theorem join_cons_cons (piece next : Text) (pieces : List Text) :
    join [sep] (piece :: next :: pieces)
      = piece ++ sep :: join [sep] (next :: pieces) := by
  rw [join, List.intercalate_cons_cons, List.append_assoc]
  rfl

@[simp]
theorem join_singleton (sep piece : Text) : join sep [piece] = piece :=
  List.append_nil piece

/-- What is joined starts with the first piece. -/
theorem join_cons (sep : CodePoint) (piece : Text) (pieces : List Text) :
    ∃ behind, join [sep] (piece :: pieces) = piece ++ behind := by
  cases pieces with
  | nil => exact ⟨[], (join_singleton [sep] piece).trans (List.append_nil _).symm⟩
  | cons next pieces => exact ⟨_, join_cons_cons piece next pieces⟩

/-- What is joined ends with the last piece. -/
theorem join_concat (sep : CodePoint) (pieces : List Text) (piece : Text) :
    ∃ before, join [sep] (pieces ++ [piece]) = before ++ piece := by
  induction pieces with
  | nil => exact ⟨[], join_singleton [sep] piece⟩
  | cons first pieces ih =>
      obtain ⟨before, hbefore⟩ := ih
      obtain ⟨next, rest, hrest⟩ := List.exists_cons_of_ne_nil
        (List.append_ne_nil_of_right_ne_nil pieces (List.cons_ne_nil piece []))
      refine ⟨first ++ sep :: before, ?_⟩
      rw [List.cons_append, hrest, join_cons_cons, ← hrest, hbefore,
        List.append_assoc, List.cons_append]

/-- What is joined holds the signs of the pieces, and the one between
    them. -/
theorem mem_join {c : CodePoint} :
    c ∈ join [sep] pieces → c = sep ∨ ∃ piece ∈ pieces, c ∈ piece := by
  induction pieces with
  | nil => simp [join]
  | cons piece pieces ih =>
      cases pieces with
      | nil =>
          rw [join_singleton]
          intro hc
          exact Or.inr ⟨piece, List.mem_cons_self, hc⟩
      | cons next pieces =>
          rw [join_cons_cons]
          intro hc
          rcases List.mem_append.mp hc with hc | hc
          · exact Or.inr ⟨piece, List.mem_cons_self, hc⟩
          rcases List.mem_cons.mp hc with hc | hc
          · exact Or.inl hc
          obtain h | ⟨piece', hpiece', hc⟩ := ih hc
          · exact Or.inl h
          · exact Or.inr ⟨piece', List.mem_cons_of_mem _ hpiece', hc⟩

/-! ## Cutting -/

/-- A text without the separator is not cut. -/
theorem cut_of_not_mem (h : sep ∉ t) : cut sep t = (t, none) := by
  induction t with
  | nil => rfl
  | cons c t ih =>
      rw [List.mem_cons, not_or] at h
      rw [cut, if_neg (Ne.symm h.1), ih h.2]

/-- The sign at which a text is cut is the first one. -/
theorem cut_append_cons (h : sep ∉ t) (u : Text) :
    cut sep (t ++ sep :: u) = (t, some u) := by
  induction t with
  | nil => rw [List.nil_append, cut, if_pos rfl]
  | cons c t ih =>
      rw [List.mem_cons, not_or] at h
      rw [List.cons_append, cut, if_neg (Ne.symm h.1), ih h.2]

/-- What is cut apart is the text. -/
theorem cut_cases (sep : CodePoint) (t : Text) :
    (sep ∉ t ∧ cut sep t = (t, none))
      ∨ ∃ before behind, t = before ++ sep :: behind ∧ sep ∉ before
          ∧ cut sep t = (before, some behind) := by
  by_cases h : sep ∈ t
  · obtain ⟨before, behind, rfl, hbefore⟩ := List.eq_append_cons_of_mem h
    exact Or.inr ⟨before, behind, rfl, hbefore, cut_append_cons hbefore behind⟩
  · exact Or.inl ⟨h, cut_of_not_mem h⟩

/-! ## Stripping -/

/-- What is dropped ends at the first character that stays. -/
theorem dropWhile_append_of_head {p : CodePoint → Bool} {before : Text}
    (hbefore : ∀ c ∈ before, p c) (hfirst : ∀ c, t.head? = some c → p c = false) :
    (before ++ t).dropWhile p = t := by
  rw [List.dropWhile_append_of_pos hbefore]
  cases t with
  | nil => rfl
  | cons c t => rw [List.dropWhile_cons_of_neg (by simp [hfirst c rfl])]

/-- A text that does not start with a sign to be stripped, nor end with one,
    is what is left between such signs. -/
theorem strip_surrounded {p : CodePoint → Bool} {before behind : Text}
    (hne : t ≠ []) (hbefore : ∀ c ∈ before, p c) (hbehind : ∀ c ∈ behind, p c)
    (hfirst : ∀ c, t.head? = some c → p c = false)
    (hlast : ∀ c, t.getLast? = some c → p c = false) :
    strip p (before ++ t ++ behind) = t := by
  have hfront : (before ++ (t ++ behind)).dropWhile p = t ++ behind := by
    refine dropWhile_append_of_head hbefore ?_
    obtain ⟨c, rest, rfl⟩ := List.exists_cons_of_ne_nil hne
    exact hfirst
  have hback : (behind.reverse ++ t.reverse).dropWhile p = t.reverse := by
    refine dropWhile_append_of_head ?_ ?_
    · intro c hc
      exact hbehind c (List.mem_reverse.mp hc)
    · rw [List.head?_reverse]
      exact hlast
  rw [strip, List.append_assoc, hfront, List.reverse_append, hback,
    List.reverse_reverse]

/-- What is left of a text stands between signs that are stripped, and
    neither starts with one nor ends with one. -/
theorem surrounded_of_strip {p : CodePoint → Bool} (h : strip p u = t) :
    ∃ before behind, u = before ++ t ++ behind ∧ (∀ c ∈ before, p c)
      ∧ (∀ c ∈ behind, p c) ∧ (∀ c, t.head? = some c → p c = false)
      ∧ ∀ c, t.getLast? = some c → p c = false := by
  have hrest : (u.dropWhile p).reverse.dropWhile p = t.reverse := by
    rw [← h, strip, List.reverse_reverse]
  have hback := List.takeWhile_append_dropWhile (p := p) (l := (u.dropWhile p).reverse)
  have hfront : u.dropWhile p
      = t ++ ((u.dropWhile p).reverse.takeWhile p).reverse := by
    rw [hrest] at hback
    rw [← List.reverse_reverse t, ← List.reverse_append, hback,
      List.reverse_reverse]
  refine ⟨u.takeWhile p, ((u.dropWhile p).reverse.takeWhile p).reverse, ?_, ?_, ?_,
    ?_, ?_⟩
  · rw [List.append_assoc, ← hfront, List.takeWhile_append_dropWhile]
  · intro c hc
    exact List.all_eq_true.mp List.all_takeWhile c hc
  · intro c hc
    exact List.all_eq_true.mp List.all_takeWhile c (List.mem_reverse.mp hc)
  · intro c hc
    have hnot := List.head?_dropWhile_not p u
    rw [hfront, List.head?_append, hc] at hnot
    exact hnot
  · intro c hc
    have hnot := List.head?_dropWhile_not p (u.dropWhile p).reverse
    rw [hrest, List.head?_reverse, hc] at hnot
    exact hnot

end CouchClient.Text
