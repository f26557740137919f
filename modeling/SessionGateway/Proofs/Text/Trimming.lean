import SessionGateway.Text.Blank

/-!
# What trimming leaves

Trimming takes off the blanks around a text: what it leaves neither begins nor ends with a blank,
and blanks inside it stay.
-/

namespace SessionGateway.Text

/-- A text and what stands in it between the blanks at its ends. -/
def Trimmed (s core : List Char) : Prop :=
  ∃ before after, s = before ++ (core ++ after) ∧ (∀ c ∈ before, isBlank c = true) ∧
    (∀ c ∈ after, isBlank c = true) ∧ (∀ c, core.head? = some c → isBlank c = false) ∧
    ∀ c, core.getLast? = some c → isBlank c = false

variable {s core : List Char}

theorem dropWhile_blanks {before rest : List Char} (hbefore : ∀ c ∈ before, isBlank c = true)
    (hrest : ∀ c, rest.head? = some c → isBlank c = false) :
    (before ++ rest).dropWhile isBlank = rest := by
  rw [List.dropWhile_append_of_pos hbefore]
  cases rest with
  | nil => rfl
  | cons c rest => exact List.dropWhile_cons_of_neg (by simp [hrest c rfl])

theorem Trimmed.trimChars_eq (h : Trimmed s core) : trimChars s = core := by
  obtain ⟨before, after, rfl, hbefore, hafter, hhead, hlast⟩ := h
  cases core with
  | nil =>
    -- Nothing stops the first pass before the end of the text.
    have hblank : ∀ c ∈ before ++ after, isBlank c = true := by
      intro c hc
      exact (List.mem_append.mp hc).elim (hbefore c) (hafter c)
    have hnone : (before ++ after).dropWhile isBlank = [] := by
      rw [← List.append_nil (before ++ after)]
      exact dropWhile_blanks hblank (by simp)
    rw [trimChars, List.nil_append, hnone]
    rfl
  | cons c rest =>
    have hfront : (before ++ (c :: rest ++ after)).dropWhile isBlank = c :: rest ++ after :=
      dropWhile_blanks hbefore hhead
    have hback : (after.reverse ++ (c :: rest).reverse).dropWhile isBlank =
        (c :: rest).reverse := by
      refine dropWhile_blanks (fun d hd => hafter d (List.mem_reverse.mp hd)) fun d hd => ?_
      rw [List.head?_reverse] at hd
      exact hlast d hd
    rw [trimChars, hfront, List.reverse_append, hback, List.reverse_reverse]

theorem trimmed_trimChars (s : List Char) : Trimmed s (trimChars s) := by
  have hstop : ∀ (l : List Char) c, (l.dropWhile isBlank).head? = some c → isBlank c = false := by
    intro l c hc
    have hnot := List.head?_dropWhile_not isBlank l
    rwa [hc] at hnot
  have hback : s.dropWhile isBlank =
      trimChars s ++ ((s.dropWhile isBlank).reverse.takeWhile isBlank).reverse := by
    rw [trimChars, ← List.reverse_append, List.takeWhile_append_dropWhile, List.reverse_reverse]
  refine ⟨s.takeWhile isBlank, ((s.dropWhile isBlank).reverse.takeWhile isBlank).reverse, ?_, ?_,
    ?_, ?_, ?_⟩
  · rw [← hback, List.takeWhile_append_dropWhile]
  · exact List.all_eq_true.mp List.all_takeWhile
  · intro c hc
    exact List.all_eq_true.mp List.all_takeWhile c (List.mem_reverse.mp hc)
  · intro c hc
    apply hstop s c
    rw [hback, List.head?_append, hc]
    rfl
  · intro c hc
    rw [trimChars, List.getLast?_reverse] at hc
    exact hstop _ c hc

theorem trimChars_eq_iff : trimChars s = core ↔ Trimmed s core := by
  constructor
  · rintro rfl
    exact trimmed_trimChars s
  · exact Trimmed.trimChars_eq

end SessionGateway.Text
