import Mathlib

/-! # Byte strings and paths

Byte strings, and the part of `std::filesystem::path` that works on the text alone, for the generic
format: a path is its text, `/` separates the names, and a path that starts with `/` is absolute. -/

namespace Brookesia.Filesystem.Path

open List

abbrev Bytes := List UInt8

def text (s : String) : Bytes := s.toByteArray.data.toList

def separator : UInt8 := 47

def dot : Bytes := text "."

def dotDot : Bytes := text ".."

/-- The names between the separators. A name is empty where two separators meet, and where one stands
at an end. -/
def split : Bytes → List Bytes
  | [] => [[]]
  | c :: rest =>
    if c = separator then [] :: split rest
    else
      match split rest with
      | [] => [[c]]
      | name :: names => (c :: name) :: names

def isAbsolute (p : Bytes) : Bool := p.head? = some separator

/-- `p / q`. -/
def append (p q : Bytes) : Bytes :=
  if isAbsolute q = true ∨ p = [] then q
  else if p.getLast? = some separator then p ++ q
  else p ++ separator :: q

/-- `p.parent_path()`. -/
def parentPath (p : Bytes) : Bytes :=
  let parent :=
    ((p.reverse.dropWhile (· ≠ separator)).dropWhile (· = separator)).reverse
  if parent = [] ∧ isAbsolute p then [separator] else parent

/-- A path in normal form: whether it is absolute, its names, and whether a separator is at its end. -/
structure NormalPath where
  rooted : Bool
  names : List Bytes
  slash : Bool
  deriving DecidableEq

/-- The next name of `lexically_normal`, over the names so far, the last first. -/
def normalStep (rooted : Bool) (done : List Bytes) (name : Bytes) : List Bytes :=
  if name = [] ∨ name = dot then done
  else if name = dotDot then
    match done with
    | [] => if rooted then [] else [dotDot]
    | top :: rest => if top = dotDot then dotDot :: top :: rest else rest
  else name :: done

def normalNames (p : Bytes) : List Bytes :=
  ((split p).foldl (normalStep (isAbsolute p)) []).reverse

def lexicallyNormal (p : Bytes) : NormalPath where
  rooted := isAbsolute p
  names := normalNames p
  slash :=
    normalNames p ≠ [] ∧ (normalNames p).getLast? ≠ some dotDot ∧ (split p).getLast? ∈ [some [], some dot, some dotDot]

def NormalPath.filename (p : NormalPath) : Bytes := if p.slash then [] else p.names.getLastD []

/-- The text of a path in normal form; that of the empty relative path is a dot. -/
def NormalPath.toText (p : NormalPath) : Bytes :=
  let names := [separator].intercalate p.names ++ if p.slash then [separator] else []
  if p.rooted then separator :: names else if p.names = [] then dot else names

/-! ### The names of a path -/

@[simp] theorem split_nil : split [] = [[]] := rfl

theorem split_ne_nil (p : Bytes) : split p ≠ [] := by
  cases p with
  | nil => simp
  | cons c rest =>
    unfold split
    split_ifs with h
    · simp
    · cases split rest <;> simp

theorem split_separator (p : Bytes) : split (separator :: p) = [] :: split p := by
  rw [split]
  exact if_pos rfl

theorem split_append (p q : Bytes) : split (p ++ separator :: q) = split p ++ split q := by
  induction p with
  | nil => rw [nil_append, split_separator]; rfl
  | cons c rest ih =>
    rw [cons_append, split, split, ih]
    by_cases h : c = separator
    · rw [if_pos h, if_pos h]
      rfl
    · rw [if_neg h, if_neg h]
      obtain ⟨name, names, hnms⟩ := exists_cons_of_ne_nil (split_ne_nil rest)
      rw [hnms]
      rfl

theorem split_of_notMem {p : Bytes} (h : separator ∉ p) : split p = [p] := by
  induction p with
  | nil => rfl
  | cons c rest ih =>
    have hc : c ≠ separator := fun hc => h (by rw [hc]; exact mem_cons_self ..)
    have hrest : separator ∉ rest := fun hr => h (mem_cons_of_mem _ hr)
    rw [split, if_neg hc, ih hrest]

def isProper (name : Bytes) : Bool := name ≠ [] ∧ name ≠ dot

example : lexicallyNormal (text "/a//./b/../c/") = ⟨true, [text "a", text "c"], true⟩ := by decide

end Brookesia.Filesystem.Path
