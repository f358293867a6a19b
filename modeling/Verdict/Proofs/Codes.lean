import Verdict.Formula.Label
import Verdict.Proofs.RoundTrip

/-!
# What tells formulas apart

Two formulas are the same when comparing them says so, when they have the same code and when they
have the same text. For the code this is because it tells where it ends: the first label says
whether operands follow, so what comes after the code of a formula can be split off, and
`eq_of_code_append` finds the operands one after the other.
-/

namespace Verdict

/-- The code of a label tells which label it is and where it ends. -/
theorem Label.eq_of_code_append {x y : Label} {s t : List Nat}
    (h : x.code ++ s = y.code ++ t) : x = y ∧ s = t := by
  cases x with
  | fact f =>
      cases y with
      | fact g =>
          obtain ⟨hval, hrest⟩ := List.cons.inj (List.cons.inj h).2
          exact ⟨congrArg fact (Fin.ext hval), hrest⟩
      | connective d => cases d <;> simp [code] at h
  | connective c =>
      cases y with
      | fact g => cases c <;> simp [code] at h
      | connective d => cases c <;> cases d <;> simp_all [code]

namespace Formula

theorem code_fact (f : Fact) : (fact f).code = (Label.fact f).code := by
  simp [code, labels_eq_preorder, preorder]

theorem code_join (c : Connective) (left right : Formula) :
    (join c left right).code = (Label.connective c).code ++ (left.code ++ right.code) := by
  simp [code, labels_eq_preorder, preorder]

variable {a b : Formula}

/-- The code of a formula tells which formula it is and where it ends. -/
theorem eq_of_code_append {s t : List Nat} (h : a.code ++ s = b.code ++ t) : a = b ∧ s = t := by
  induction a generalizing b s t with
  | fact f =>
      cases b with
      | fact g =>
          rw [code_fact, code_fact] at h
          obtain ⟨hlabel, hrest⟩ := Label.eq_of_code_append h
          cases hlabel
          exact ⟨rfl, hrest⟩
      | join d left' right' =>
          rw [code_fact, code_join, List.append_assoc] at h
          have hlabel := (Label.eq_of_code_append h).1
          contradiction
  | join c left right ihl ihr =>
      cases b with
      | fact g =>
          rw [code_fact, code_join, List.append_assoc] at h
          have hlabel := (Label.eq_of_code_append h).1
          contradiction
      | join d left' right' =>
          simp only [code_join, List.append_assoc] at h
          obtain ⟨hlabel, hoperands⟩ := Label.eq_of_code_append h
          obtain ⟨rfl, hright⟩ := ihl hoperands
          obtain ⟨rfl, hrest⟩ := ihr hright
          cases hlabel
          exact ⟨rfl, hrest⟩

theorem code_prefix_iff : a.code <+: b.code ↔ a = b := by
  constructor
  · rintro ⟨rest, h⟩
    rw [← List.append_nil b.code] at h
    exact (eq_of_code_append h).1
  · rintro rfl
    exact List.prefix_refl _

theorem code_inj : a.code = b.code ↔ a = b :=
  ⟨fun h => code_prefix_iff.mp (h ▸ List.prefix_refl _), congrArg code⟩

/-- A formula can be read back from its text, so the text determines it. -/
theorem text_inj : a.text = b.text ↔ a = b := by
  constructor
  · intro h
    have hread : (.ok a : Except ParseError Formula) = .ok b := calc
      .ok a = parse a.text := a.parse_text.symm
      _ = parse b.text := by rw [h]
      _ = .ok b := b.parse_text
    exact Except.ok.inj hread
  · exact congrArg text

/-- Comparing two formulas says whether they are the same formula, and so do comparing their codes
and comparing their texts. No code is a proper beginning of another one. -/
theorem allEqual_iff_same (a b : Formula) :
    (allEqual [(a, b)] = true ↔ a = b) ∧
      (allEqual [(a, b)] = true ↔ a.code = b.code) ∧
      (allEqual [(a, b)] = true ↔ a.text = b.text) ∧
      (allEqual [(a, b)] = true ↔ a.code <+: b.code) := by
  have hsame : allEqual [(a, b)] = true ↔ a = b := by simp [allEqual_iff]
  rw [code_inj, text_inj, code_prefix_iff]
  exact ⟨hsame, hsame, hsame, hsame⟩

end Formula

end Verdict
