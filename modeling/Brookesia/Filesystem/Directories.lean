import Mathlib

/-! # The directories of a file system

Which directories there are, by the names on their paths, with a record of those that have been removed and not been made again. -/

namespace Brookesia.Filesystem

open List

structure Directories (ν : Type) where
  present : List (List ν)
  removed : List (List ν)
  deriving DecidableEq

namespace Directories

variable {ν : Type} {d : Directories ν} {path : List ν}

def make [DecidableEq ν] (made : List (List ν)) (d : Directories ν) : Directories ν where
  present := d.present ++ made
  removed := d.removed.filter (· ∉ made)

def remove (gone : List ν → Bool) (d : Directories ν) : Directories ν where
  present := d.present.filter (!gone ·)
  removed := d.removed ++ d.present.filter gone

/-- The directories below `source`, as they are named below `destination`. -/
def moved [DecidableEq ν] (source destination : List ν) (d : Directories ν) : List (List ν) :=
  (d.present.filter (source.isPrefixOf ·)).map fun path => destination ++ path.drop source.length

def Known (path : List ν) (d : Directories ν) : Prop := path ∈ d.present ∨ path ∈ d.removed

def Consistent (d : Directories ν) : Prop := ∀ path ∈ d.removed, path ∉ d.present

theorem Known.remove (h : Known path d) (gone : List ν → Bool) : Known path (d.remove gone) := by
  rcases h with hpres | hrem
  · cases hgone : gone path with
    | false => exact .inl (mem_filter.mpr ⟨hpres, by rw [hgone]; rfl⟩)
    | true => exact .inr (mem_append_right _ (mem_filter.mpr ⟨hpres, hgone⟩))
  · exact .inr (mem_append_left _ hrem)

theorem Consistent.remove (h : Consistent d) (gone : List ν → Bool) : Consistent (d.remove gone) := by
  intro path hrem hpres
  obtain ⟨hpres, hleft⟩ := mem_filter.mp hpres
  rcases mem_append.mp hrem with hrem | hgone
  · exact h path hrem hpres
  · rw [(mem_filter.mp hgone).2] at hleft
    exact Bool.false_ne_true hleft

theorem Known.mem_iff (h : Known path d) (hd : Consistent d) : path ∈ d.present ↔ path ∉ d.removed :=
  ⟨fun hpres hrem => hd path hrem hpres, fun hrem => h.resolve_right hrem⟩

variable [DecidableEq ν] {made : List (List ν)}

theorem mem_make (h : path ∈ made) (d : Directories ν) : path ∈ (d.make made).present := mem_append_right _ h

theorem mem_make_of_mem (h : path ∈ d.present) (made : List (List ν)) : path ∈ (d.make made).present :=
  mem_append_left _ h

theorem Known.make (h : Known path d) (made : List (List ν)) : Known path (d.make made) := by
  by_cases hmade : path ∈ made
  · exact .inl (mem_make hmade d)
  · rcases h with hpres | hrem
    · exact .inl (mem_make_of_mem hpres made)
    · exact .inr (mem_filter.mpr ⟨hrem, decide_eq_true hmade⟩)

theorem Consistent.make (h : Consistent d) (made : List (List ν)) : Consistent (d.make made) := by
  intro path hrem hpres
  obtain ⟨hrem, hmade⟩ := mem_filter.mp hrem
  rcases mem_append.mp hpres with hpres | hmem
  · exact h path hrem hpres
  · exact of_decide_eq_true hmade hmem

end Directories

end Brookesia.Filesystem
