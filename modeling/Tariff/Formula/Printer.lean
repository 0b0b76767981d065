import Tariff.Formula.Basic

set_option autoImplicit false

namespace Tariff.Formula

def joined (separator : String) : List (List Char) → List Char
  | [] => []
  | [text] => text
  | text :: rest => text ++ separator.toList ++ joined separator rest

def parenthesized (inner : List Char) : List Char := '(' :: (inner ++ [')'])

def callText (name : String) (inner : List Char) : List Char :=
  name.toList ++ parenthesized inner

def arithmeticText (op : Arithmetic) (operands : List (List Char)) : List Char :=
  match op with
  | .least | .greatest => callText op.symbol (joined ", " operands)
  | op =>
      match operands with
      | [operand] => parenthesized (op.symbol.toList ++ operand)
      | operands => parenthesized (joined (" " ++ op.symbol ++ " ") operands)

def branchesText (keyword : String) : List (List Char × List Char) → List Char
  | [] => []
  | (condition, consequence) :: rest =>
      keyword.toList ++ condition ++ " then ".toList ++ consequence ++ branchesText " elif " rest

mutual

def chars : Formula → List Char
  | .literal value => value.render.toList
  | .field path none => path.toList
  | .field path (some default) =>
      parenthesized (path.toList ++ " ?? ".toList ++ default.render.toList)
  | .arithmetic op operands => arithmeticText op (charsEach operands)
  | .compare comparison left right =>
      parenthesized (left.chars ++ (" " ++ comparison.symbol ++ " ").toList ++ right.chars)
  | .all operands => parenthesized (joined " AND " (charsEach operands))
  | .any operands => parenthesized (joined " OR " (charsEach operands))
  | .not operand => parenthesized ("NOT ".toList ++ operand.chars)
  | .truth operand => callText "bool" operand.chars
  | .choose branches none => branchesText "(if " (charsBranches branches) ++ [')']
  | .choose branches (some otherwise) =>
      branchesText "(if " (charsBranches branches) ++ " else ".toList ++ otherwise.chars ++ [')']
  | .among needle candidates =>
      parenthesized (needle.chars ++ " in [".toList ++ joined ", " (charsEach candidates) ++ [']'])
  | .contains haystack needle => parenthesized (needle.chars ++ " in ".toList ++ haystack.chars)

def charsEach : List Formula → List (List Char)
  | [] => []
  | formula :: rest => formula.chars :: charsEach rest

def charsBranches : List (Formula × Formula) → List (List Char × List Char)
  | [] => []
  | (condition, consequence) :: rest =>
      (condition.chars, consequence.chars) :: charsBranches rest

end

def render (formula : Formula) : String := String.ofList formula.chars

instance : ToString Formula := ⟨render⟩

theorem chars_each_eq_map (formulas : List Formula) : charsEach formulas = formulas.map chars := by
  induction formulas with
  | nil => simp [charsEach]
  | cons formula rest ih => simp [charsEach, ih]

end Tariff.Formula
