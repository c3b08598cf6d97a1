import WordStream.Markup.Name

/-!
# Texts gathered

A reader may tell a text in pieces. Calls whose texts are gathered tell every text at once.
-/

set_option autoImplicit false

namespace WordStream.Markup

/-- Tells a text before calls, at once with the text that they begin with. -/
def tellText (content : String) : List Call → List Call
  | .data more :: rest => .data (content ++ more) :: rest
  | sequence => if content = "" then sequence else .data content :: sequence

/-- The calls with every text told at once. How a reader has cut the texts is lost, nothing else. -/
def gather : List Call → List Call
  | [] => []
  | .data content :: rest => tellText content (gather rest)
  | .start tag attributes :: rest => .start tag attributes :: gather rest
  | .finish tag :: rest => .finish tag :: gather rest

@[simp]
theorem tellText_empty (sequence : List Call) : tellText "" sequence = sequence := by
  rcases sequence with _ | ⟨_ | _ | _, _⟩ <;> simp [tellText]

theorem eq_tellText (content : String) (sequence : List Call) :
    (∃ more rest, sequence = .data more :: rest ∧
        tellText content sequence = .data (content ++ more) :: rest) ∨
      (content = "" ∧ tellText content sequence = sequence) ∨
        tellText content sequence = .data content :: sequence := by
  rcases sequence with _ | ⟨_ | _ | more, rest⟩
  case cons.data => exact .inl ⟨more, rest, rfl, rfl⟩
  all_goals
    by_cases empty : content = ""
    · exact .inr (.inl ⟨empty, if_pos empty⟩)
    · exact .inr (.inr (if_neg empty))

theorem tellText_tellText (former latter : String) (sequence : List Call) :
    tellText former (tellText latter sequence) = tellText (former ++ latter) sequence := by
  rcases sequence with _ | ⟨_ | _ | _, _⟩
  case cons.data => simp only [tellText, String.append_assoc]
  all_goals
    by_cases empty : latter = ""
    · simp [tellText, empty]
    · simp [tellText, empty, String.append_eq_empty_iff]

/-- However a text is cut, what is gathered is the text. -/
theorem gather_pieces (pieces : List String) (rest : List Call) :
    gather (pieces.map .data ++ rest) = tellText (String.join pieces) (gather rest) := by
  induction pieces with
  | nil => exact (tellText_empty (gather rest)).symm
  | cons piece pieces ih =>
      simp only [List.map_cons, List.cons_append, gather, String.join_cons]
      rw [ih, tellText_tellText]

theorem gather_append {sequence other : List Call} (same : gather sequence = gather other)
    (front : List Call) : gather (front ++ sequence) = gather (front ++ other) := by
  induction front with
  | nil => exact same
  | cons call front ih => cases call <;> simp only [List.cons_append, gather, ih]

end WordStream.Markup
