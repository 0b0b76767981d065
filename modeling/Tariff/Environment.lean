import Tariff.Named
import Tariff.Scalar

/-! A path is bound to a value, or known to have none because what should produce it failed, which is
not the same as being missing. Binding a path replaces whatever lay on its way. -/

set_option autoImplicit false

namespace Tariff

abbrev Path := List String

namespace Path

def splitDots : List Char → List (List Char)
  | [] => [[]]
  | c :: rest =>
      if c = '.' then [] :: splitDots rest
      else
        match splitDots rest with
        | [] => [[c]]
        | piece :: more => (c :: piece) :: more

def ofString (text : String) : Path := (splitDots text.toList).map String.ofList

theorem split_dots_ne_nil (text : List Char) : splitDots text ≠ [] := by
  cases text with
  | nil => simp [splitDots]
  | cons c rest =>
      unfold splitDots
      split
      · simp
      · split <;> simp

theorem of_string_ne_nil (text : String) : ofString text ≠ [] := by
  simp [ofString, split_dots_ne_nil]

theorem split_dots_append (left right : List Char) :
    splitDots (left ++ '.' :: right) = splitDots left ++ splitDots right := by
  induction left with
  | nil => simp [splitDots]
  | cons c rest ih =>
      simp only [List.cons_append, splitDots, ih]
      by_cases dot : c = '.'
      · simp [dot]
      · cases pieces : splitDots rest with
        | nil => exact absurd pieces (split_dots_ne_nil rest)
        | cons piece more => simp [dot]

end Path

inductive Binding where
  | leaf (scalar : Scalar)
  | unavailable
  | group (members : List (String × Binding))
deriving Repr

abbrev Binding.Members := Named Binding

def Binding.inner : Option Binding → Binding.Members
  | some (.group members) => members
  | _ => []

inductive Lookup where
  | found (scalar : Scalar)
  | missing
  | unavailable
deriving DecidableEq, Repr

def Binding.reading : Option Binding → Lookup
  | some (.leaf scalar) => .found scalar
  | some .unavailable => .unavailable
  | some (.group _) => .missing
  | none => .missing

namespace Binding.Members

def bind : Path → Binding → Members → Members
  | [], _, members => members
  | [last], binding, members => Named.put last binding members
  | first :: second :: rest, binding, members =>
      Named.put first
        (.group (bind (second :: rest) binding (Binding.inner (members.lookup first)))) members

def read : Path → Members → Lookup
  | [], _ => .missing
  | [last], members => Binding.reading (members.lookup last)
  | first :: second :: rest, members =>
      read (second :: rest) (Binding.inner (members.lookup first))

mutual

-- Binds every scalar of a JSON value below a path: members by their keys, items by their place. A
-- number that no decimal holds is unavailable.
def bindJson : Path → Json → Members → Members
  | path, .array items, members => bindItems path 0 items members
  | path, .object entries, members => bindEntries path entries members
  | path, scalar, members =>
      members.bind path (match Scalar.ofJson? scalar with
        | some value => .leaf value
        | none => .unavailable)

def bindItems : Path → Nat → List Json → Members → Members
  | _, _, [], members => members
  | path, place, item :: rest, members =>
      bindItems path (place + 1) rest (bindJson (path ++ [toString place]) item members)

-- A key with dots is a path of its own.
def bindEntries : Path → List (String × Json) → Members → Members
  | _, [], members => members
  | path, (key, value) :: rest, members =>
      bindEntries path rest (bindJson (path ++ Path.ofString key) value members)

end

end Binding.Members

structure Environment where
  members : Binding.Members
deriving Repr

namespace Environment

def empty : Environment := ⟨[]⟩

instance : Inhabited Environment := ⟨empty⟩

def bind (environment : Environment) (path : String) (scalar : Scalar) : Environment :=
  ⟨environment.members.bind (Path.ofString path) (.leaf scalar)⟩

def bindUnavailable (environment : Environment) (path : String) : Environment :=
  ⟨environment.members.bind (Path.ofString path) .unavailable⟩

def bindObject (environment : Environment) (root : String) (object : Json.Object) : Environment :=
  ⟨environment.members.bindEntries (Path.ofString root) object.members⟩

def lookup (environment : Environment) (path : String) : Lookup :=
  environment.members.read (Path.ofString path)

end Environment

end Tariff
