import FlowDiagram.Proofs.Collisions
import FlowDiagram.Proofs.Outlines

/-!
# Rewriting names and labels

A name is rewritten into an identifier and a label into a plain label, one character after another. Both rewritings are
projections (`Projects`): they go along with putting texts together, they give texts that are made of the characters of a
class, and they leave a text as it is just if it is made of these. This comes down to what stands for a single character
(`projects_of_chars`): nothing but characters of the class, and for one of the class the character itself. A label grows where
several characters stand for one, but none of these is rewritten again.

Main statement: the identifiers are the texts of ASCII letters, digits and underscores, and the plain labels those without the
seven characters that could open or close the drawing of a node. Rewriting reaches them in one step and changes nothing from
then on (`rewriting_projects`).
-/

namespace FlowDiagram.Diagram

/-! ## Projections -/

/-- A rewriting of texts, part by part, onto those that are made of the characters of a class. -/
structure Projects (f : String → String) (p : Char → Prop) : Prop where
  append : ∀ s t, f (s ++ t) = f s ++ f t
  inside : ∀ s, ∀ c ∈ (f s).toList, p c
  fixed : ∀ s, f s = s ↔ ∀ c ∈ s.toList, p c

section

variable {f : String → String} {p : Char → Prop}

/-- What was rewritten is left as it is. -/
theorem Projects.idempotent (h : Projects f p) (s : String) : f (f s) = f s :=
  (h.fixed (f s)).mpr (h.inside s)

/-- Rewriting character by character is a projection if all that stands for a character is in the class, and nothing but the
character itself stands for one that is in the class already. -/
theorem projects_of_chars {g : Char → List Char} (hf : ∀ s, f s = String.ofList (s.toList.flatMap g))
    (hinside : ∀ c, ∀ d ∈ g c, p d) (hself : ∀ c, p c → g c = [c]) : Projects f p := by
  have hmade : ∀ s, ∀ c ∈ (f s).toList, p c := by
    intro s c hc
    rw [hf, String.toList_ofList, List.mem_flatMap] at hc
    obtain ⟨d, -, hd⟩ := hc
    exact hinside d c hd
  refine ⟨fun s t => ?_, hmade, fun s => ⟨fun h => ?_, fun h => ?_⟩⟩
  · rw [hf, hf, hf, String.toList_append, List.flatMap_append, String.ofList_append]
  · rw [← h]
    exact hmade s
  · rw [hf]
    exact ofList_flatMap_eq_self fun c hc => hself c (h c hc)

end

/-! ## Names -/

/-- The characters that an identifier can hold are the ASCII letters and digits, and the underscore. -/
theorem isIdentifierChar_iff {c : Char} :
    isIdentifierChar c = true ↔ 'A' ≤ c ∧ c ≤ 'Z' ∨ 'a' ≤ c ∧ c ≤ 'z' ∨ '0' ≤ c ∧ c ≤ '9' ∨ c = '_' := by
  have hclass : isIdentifierChar c =
      (decide ('A' ≤ c ∧ c ≤ 'Z') || ('a' ≤ c && c ≤ 'z') || ('0' ≤ c && c ≤ '9') || c == '_') := rfl
  simp only [hclass, Bool.or_eq_true, Bool.and_eq_true, decide_eq_true_eq, beq_iff_eq, or_assoc]

/-- Names are rewritten onto the texts that are made of characters of identifiers. -/
theorem projects_identifier : Projects identifier (isIdentifierChar · = true) := by
  refine projects_of_chars (g := fun c => [identifierChar c]) (fun s => ?_) (fun c d hd => ?_) fun c hc => ?_
  · rw [identifier, List.map_eq_flatMap]
  · rw [List.mem_singleton.mp hd]
    exact isIdentifierChar_identifierChar c
  · rw [identifierChar, if_pos hc]

/-- An identifier has as many characters as its name. -/
theorem length_identifier (s : String) : (identifier s).length = s.length := by
  rw [identifier, String.length_ofList, List.length_map, String.length_toList]

/-! ## Labels -/

/-- A character that is not structural stands for itself in a label. -/
theorem labelChars_of_not_mem {c : Char} (hc : c ∉ structural) : labelChars c = [c] := by
  unfold labelChars
  split
  case h_8 => rfl
  all_goals exact absurd (by decide) hc

/-- Labels are rewritten onto the texts that have no structural character. -/
theorem projects_plainLabel : Projects plainLabel (· ∉ structural) :=
  projects_of_chars (fun _ => rfl) (fun c _ hd hmem => not_mem_labelChars hmem c hd) fun _ => labelChars_of_not_mem

/-- What names and labels are rewritten into. Rewriting twice is rewriting once, and parts can be rewritten apart. A name is its
own identifier just if it is made of ASCII letters, digits and underscores. Its identifier has as many characters, and is the
name itself if it has no underscore. A label is plain as it is just if it has none of the seven structural characters, and what
it is rewritten into never has one. -/
theorem rewriting_projects (s t : String) :
    identifier (identifier s) = identifier s ∧
      identifier (s ++ t) = identifier s ++ identifier t ∧
      (identifier s = s ↔
        ∀ c ∈ s.toList, 'A' ≤ c ∧ c ≤ 'Z' ∨ 'a' ≤ c ∧ c ≤ 'z' ∨ '0' ≤ c ∧ c ≤ '9' ∨ c = '_') ∧
      (identifier s).length = s.length ∧
      ('_' ∉ (identifier s).toList → identifier s = s) ∧
      plainLabel (plainLabel s) = plainLabel s ∧
      plainLabel (s ++ t) = plainLabel s ++ plainLabel t ∧
      (plainLabel s = s ↔ ∀ c ∈ structural, c ∉ s.toList) ∧
      ∀ c ∈ structural, c ∉ (plainLabel s).toList := by
  have hname := projects_identifier.fixed s
  simp only [isIdentifierChar_iff] at hname
  have hlabel : plainLabel s = s ↔ ∀ c ∈ structural, c ∉ s.toList := by
    rw [projects_plainLabel.fixed]
    exact ⟨fun h c hc hs => h c hs hc, fun h c hs hc => h c hc hs⟩
  exact ⟨projects_identifier.idempotent s, projects_identifier.append s t, hname, length_identifier s,
    fun h => (eq_of_identifier_eq rfl h).symm, projects_plainLabel.idempotent s, projects_plainLabel.append s t, hlabel,
    fun c hc => not_mem_plainLabel hc s⟩

/-- A name of letters and digits, whose identifier has no underscore and is the name itself, and a label that does not keep its
angle brackets. -/
theorem rewriting_projects_plainName :
    '_' ∉ (identifier "Order2").toList ∧ identifier "Order2" = "Order2" ∧
      '<' ∈ structural ∧ '<' ∉ (plainLabel "a<b>").toList := by
  have hname : '_' ∉ (identifier "Order2").toList := by decide
  have hchar : '<' ∈ structural := by decide
  obtain ⟨-, -, -, -, hkept, -⟩ := rewriting_projects "Order2" ""
  obtain ⟨-, -, -, -, -, -, -, -, hnone⟩ := rewriting_projects "a<b>" ""
  exact ⟨hname, hkept hname, hchar, hnone '<' hchar⟩

end FlowDiagram.Diagram
