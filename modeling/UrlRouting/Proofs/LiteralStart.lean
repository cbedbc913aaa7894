import UrlRouting.Matcher

/-!
# The literal beginning and the scan

Two cheap tests stand before a pattern: the scan of the template's beginning and
the comparison of the path with the text before the first bracket. The scan never
refuses a path that the comparison lets through, so it decides nothing alone.
-/

namespace UrlRouting

/-- A template with a bracket is its literal beginning, a bracket and a rest. -/
theorem literalStart_append_bracket {template : List Char} (h : '[' ∈ template) :
    ∃ rest, template = literalStart template ++ '[' :: rest := by
  induction template with
  | nil => cases h
  | cons c template ih =>
    by_cases hc : c = '['
    · subst hc
      exact ⟨template, by simp [literalStart]⟩
    · have hmem : '[' ∈ template := by
        rcases List.mem_cons.mp h with heq | hmem
        · exact absurd heq.symm hc
        · exact hmem
      obtain ⟨rest, hrest⟩ := ih hmem
      refine ⟨rest, ?_⟩
      have hstart : literalStart (c :: template) = c :: literalStart template := by
        simp [literalStart, hc]
      rw [hstart, List.cons_append, ← hrest]

/-- The scan of a path that goes on as the template does up to a bracket. -/
theorem scanFrom_append (offset : Nat) (start rest path : List Char) :
    ∃ length, scanFrom offset (start ++ '[' :: rest) (start ++ path) = .compatible length := by
  induction start generalizing offset with
  | nil => exact ⟨offset, by simp [scanFrom, opensZone]⟩
  | cons c start ih =>
    simp only [List.cons_append, scanFrom, List.head?_cons, List.tail_cons, ne_eq,
      not_true_eq_false, and_false, if_false]
    split
    · exact ⟨offset, rfl⟩
    · exact ih (offset + c.utf8Size)

/-- The scan accepts every path that starts with the text before the first bracket. -/
theorem scanLiteral_of_literalStart_prefix {template path : List Char} (hb : '[' ∈ template)
    (h : literalStart template <+: path) :
    ∃ length, scanLiteral template path = .compatible length := by
  obtain ⟨rest, hrest⟩ := literalStart_append_bracket hb
  obtain ⟨tail, htail⟩ := h
  obtain ⟨length, hscan⟩ := scanFrom_append 0 (literalStart template) rest tail
  refine ⟨length, ?_⟩
  rw [← hrest, htail] at hscan
  exact hscan

end UrlRouting
