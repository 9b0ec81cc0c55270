/-!
# Cutting a text at a mark

`cut? mark cs` splits `cs` at the first place where `mark` stands; `cut?_eq_some` says that the two
parts with the mark between them are the text again.  `cut?_append` and `cut?_eq_none` say where a
text is cut by where the first character of the mark stands.
-/

namespace Gait.Text

/-- The parts before and after the first occurrence of `mark`, if there is one. -/
def cut? (mark : List Char) : List Char → Option (List Char × List Char)
  | [] => none
  | c :: cs =>
    if mark.isPrefixOf (c :: cs) then some ([], (c :: cs).drop mark.length)
    else (cut? mark cs).map fun parts => (c :: parts.1, parts.2)

/-- Nothing is lost at a cut. -/
theorem cut?_eq_some {mark cs before after : List Char}
    (h : cut? mark cs = some (before, after)) : before ++ mark ++ after = cs := by
  induction cs generalizing before with
  | nil => simp [cut?] at h
  | cons c cs ih =>
    rw [cut?] at h
    split at h
    · next hp =>
      obtain ⟨rest, hrest⟩ := List.isPrefixOf_iff_prefix.1 hp
      simp only [Option.some.injEq, Prod.mk.injEq] at h
      obtain ⟨rfl, rfl⟩ := h
      rw [← hrest]
      simp
    · obtain ⟨parts, hparts, heq⟩ := Option.map_eq_some_iff.1 h
      simp only [Prod.mk.injEq] at heq
      obtain ⟨rfl, rfl⟩ := heq
      simpa using ih hparts

variable {c : Char} {mark cs before after : List Char}

/-- A text without the mark is not cut. -/
theorem cut?_eq_none (absent : c ∉ cs) : cut? (c :: mark) cs = none := by
  cases cut : cut? (c :: mark) cs with
  | none => rfl
  | some parts =>
    have whole := cut?_eq_some cut
    refine (absent ?_).elim
    rw [← whole]
    simp

/-- A text is cut at the first place where the mark stands. -/
theorem cut?_append (absent : c ∉ before) :
    cut? (c :: mark) (before ++ c :: (mark ++ after)) = some (before, after) := by
  induction before with
  | nil =>
    have here : (c :: mark).isPrefixOf (c :: (mark ++ after)) = true :=
      List.isPrefixOf_iff_prefix.2 (List.prefix_append (c :: mark) after)
    rw [List.nil_append, cut?, if_pos here, List.length_cons, List.drop_succ_cons, List.drop_left]
  | cons b before ih =>
    rw [List.mem_cons, not_or] at absent
    have later : ¬(c :: mark).isPrefixOf (b :: (before ++ c :: (mark ++ after))) = true := by
      simp [List.isPrefixOf, absent.1]
    rw [List.cons_append, cut?, if_neg later, ih absent.2]
    rfl

end Gait.Text
