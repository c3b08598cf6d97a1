/-!
# Blank characters

White space as Unicode lists it, the wider class of blank characters that document text is
tested against, and the removal of both from the ends of a text.
-/

set_option autoImplicit false

namespace WordStream.Text

/-- The inclusive ranges of the characters with the Unicode property `White_Space`. -/
def whiteSpaceRanges : List (Nat × Nat) :=
  [(0x09, 0x0D), (0x20, 0x20), (0x85, 0x85), (0xA0, 0xA0), (0x1680, 0x1680), (0x2000, 0x200A),
   (0x2028, 0x2029), (0x202F, 0x202F), (0x205F, 0x205F), (0x3000, 0x3000)]

/-- Whether one of the inclusive ranges holds the code point of a character. -/
def inRanges (ranges : List (Nat × Nat)) (character : Char) : Bool :=
  ranges.any fun range => range.1 ≤ character.toNat && character.toNat ≤ range.2

def isWhiteSpace (character : Char) : Bool :=
  inRanges whiteSpaceRanges character

/-- Whether a character is blank: white space, or one of the four information separators. -/
def isBlank (character : Char) : Bool :=
  inRanges [(0x1C, 0x1F)] character || isWhiteSpace character

def trimWhere (drop : Char → Bool) (characters : List Char) : List Char :=
  ((characters.dropWhile drop).reverse.dropWhile drop).reverse

def trim (text : String) : String :=
  String.ofList (trimWhere isBlank text.toList)

theorem dropWhile_spec (drop : Char → Bool) (characters : List Char) :
    ∀ first ∈ (characters.dropWhile drop).head?, drop first = false := by
  intro first found
  have kept := List.head?_dropWhile_not drop characters
  rw [Option.mem_def.1 found] at kept
  exact kept

/-- What is left is a part of the characters between some that are dropped, and neither begins nor ends with one. -/
theorem trimWhere_spec (drop : Char → Bool) (characters : List Char) :
    (∃ front back, characters = front ++ (trimWhere drop characters ++ back) ∧ front.all drop = true ∧
      back.all drop = true) ∧
    (∀ first ∈ (trimWhere drop characters).head?, drop first = false) ∧
    (∀ last ∈ (trimWhere drop characters).getLast?, drop last = false) := by
  let inner := characters.dropWhile drop
  have split : inner = trimWhere drop characters ++ (inner.reverse.takeWhile drop).reverse := by
    have whole := List.takeWhile_append_dropWhile (p := drop) (l := inner.reverse)
    rw [← List.reverse_inj, List.reverse_append, List.reverse_reverse] at whole
    exact whole.symm
  refine ⟨⟨characters.takeWhile drop, (inner.reverse.takeWhile drop).reverse, ?_, List.all_takeWhile, ?_⟩, ?_, ?_⟩
  · rw [← split, List.takeWhile_append_dropWhile]
  · rw [List.all_reverse]
    exact List.all_takeWhile
  · intro first found
    refine dropWhile_spec drop characters first ?_
    change first ∈ inner.head?
    rw [split, List.head?_append, Option.mem_def.1 found]
    rfl
  · intro last found
    refine dropWhile_spec drop inner.reverse last ?_
    rwa [trimWhere, List.getLast?_reverse] at found

/-- A trimmed text neither begins nor ends with a blank character, and only such characters are taken off it. -/
theorem trim_spec (text : String) :
    (∃ front back, text.toList = front ++ ((trim text).toList ++ back) ∧ front.all isBlank = true ∧
      back.all isBlank = true) ∧
    (∀ first ∈ (trim text).toList.head?, isBlank first = false) ∧
    (∀ last ∈ (trim text).toList.getLast?, isBlank last = false) := by
  rw [trim, String.toList_ofList]
  exact trimWhere_spec isBlank text.toList

/-- Whether a text holds blank characters only, and at least one of them. -/
def isBlankText (text : String) : Bool :=
  !text.isEmpty && text.toList.all isBlank

end WordStream.Text
