import Brookesia.Filesystem.Path

/-! # The normal form of a path

The names that `lexically_normal` leaves, and that its text has the same normal form. -/

namespace Brookesia.Filesystem.Path

open List

/-- Names of a path in normal form, the last first: none is empty, a dot or has a separator, and `..` stands before all others, and
only in a relative path. -/
def NormalNames (rooted : Bool) : List Bytes → Prop
  | [] => True
  | name :: done =>
    separator ∉ name ∧ isProper name = true ∧ (name = dotDot → rooted = false ∧ ∀ n ∈ done, n = dotDot) ∧ NormalNames rooted done

variable {done names : List Bytes} {name : Bytes} {p : NormalPath} {rooted : Bool}

theorem isProper_iff : isProper name = true ↔ ¬ (name = [] ∨ name = dot) := by
  unfold isProper
  simp

theorem NormalNames.mem (h : NormalNames rooted done) (hname : name ∈ done) :
    separator ∉ name ∧ isProper name = true := by
  induction done with
  | nil => exact absurd hname not_mem_nil
  | cons top done ih =>
    obtain ⟨hsep, hprop, -, hrest⟩ := h
    rcases mem_cons.mp hname with rfl | hname
    · exact ⟨hsep, hprop⟩
    · exact ih hrest hname

theorem NormalNames.step (h : NormalNames rooted done)
    (hname : separator ∉ name) : NormalNames rooted (normalStep rooted done name) := by
  unfold normalStep
  split
  · exact h
  · next hprop =>
    split
    · cases done with
      | nil =>
        cases rooted with
        | true => exact trivial
        | false => exact ⟨by decide, by decide, fun _ => ⟨rfl, fun _ hn => absurd hn not_mem_nil⟩, trivial⟩
      | cons top done =>
        dsimp only
        split
        · next htop =>
          obtain ⟨hroot, hdone⟩ := h.2.2.1 htop
          refine ⟨by decide, by decide, fun _ => ⟨hroot, fun n hn => ?_⟩, h⟩
          rcases mem_cons.mp hn with rfl | hn
          · exact htop
          · exact hdone n hn
        · exact h.2.2.2
    · next hoth => exact ⟨hname, isProper_iff.mpr hprop, fun heq => absurd heq hoth, h⟩

theorem split_notMem {p : Bytes} (h : name ∈ split p) : separator ∉ name := by
  induction p generalizing name with
  | nil =>
    obtain rfl := mem_singleton.mp h
    exact not_mem_nil
  | cons c rest ih =>
    unfold split at h
    split at h
    · rcases mem_cons.mp h with rfl | h
      · exact not_mem_nil
      · exact ih h
    · next hc =>
      obtain ⟨first, names, hsplit⟩ := exists_cons_of_ne_nil (split_ne_nil rest)
      rw [hsplit] at h ih
      rcases mem_cons.mp h with rfl | h
      · intro hmem
        rcases mem_cons.mp hmem with heq | hmem
        · exact hc heq.symm
        · exact ih mem_cons_self hmem
      · exact ih (mem_cons_of_mem _ h)

theorem normalNames_foldl (h : NormalNames rooted done)
    (hnms : ∀ name ∈ names, separator ∉ name) : NormalNames rooted (names.foldl (normalStep rooted) done) := by
  induction names generalizing done with
  | nil => exact h
  | cons name names ih =>
    exact ih (h.step (hnms name mem_cons_self)) fun n hn => hnms n (mem_cons_of_mem _ hn)

theorem normalNames_reverse (p : Bytes) : NormalNames (isAbsolute p) (normalNames p).reverse := by
  unfold normalNames
  rw [reverse_reverse]
  have hnil : NormalNames (isAbsolute p) [] := trivial
  exact normalNames_foldl hnil fun name hname => split_notMem hname

theorem NormalNames.foldl_reverse (h : NormalNames rooted done) : done.reverse.foldl (normalStep rooted) [] = done := by
  induction done with
  | nil => rfl
  | cons name done ih =>
    obtain ⟨-, hprop, hup, hrest⟩ := h
    rw [reverse_cons, foldl_append, ih hrest, foldl_cons, foldl_nil]
    unfold normalStep
    rw [if_neg (isProper_iff.mp hprop)]
    split
    · next hname =>
      obtain ⟨hroot, hdone⟩ := hup hname
      subst hname
      cases done with
      | nil => rw [hroot]; rfl
      | cons top done =>
        dsimp only
        rw [if_pos (hdone top mem_cons_self)]
    · rfl

/-! ### The text -/

theorem intercalate_cons (h : names ≠ []) :
    [separator].intercalate (name :: names) = name ++ separator :: [separator].intercalate names := by
  obtain ⟨next, rest, rfl⟩ := exists_cons_of_ne_nil h
  rfl

theorem split_intercalate (hne : names ≠ []) (h : ∀ name ∈ names, separator ∉ name) :
    split ([separator].intercalate names) = names := by
  induction names with
  | nil => exact absurd rfl hne
  | cons name names ih =>
    have hname : split name = [name] := split_of_notMem (h name mem_cons_self)
    cases names with
    | nil => simpa [List.intercalate] using hname
    | cons next rest =>
      rw [intercalate_cons (cons_ne_nil _ _), split_append, hname,
        ih (cons_ne_nil _ _) fun n hn => h n (mem_cons_of_mem _ hn)]
      rfl

/-- What the normal form of a path is like. -/
structure NormalPath.WellFormed (p : NormalPath) : Prop where
  names : NormalNames p.rooted p.names.reverse
  slash : p.slash = true → p.names ≠ [] ∧ p.names.getLast? ≠ some dotDot

theorem lexicallyNormal_wellFormed (p : Bytes) : (lexicallyNormal p).WellFormed where
  names := normalNames_reverse p
  slash := fun h => ⟨(of_decide_eq_true h).1, (of_decide_eq_true h).2.1⟩

/-- The text of the names and of the separator at the end. -/
def NormalPath.body (p : NormalPath) : Bytes := [separator].intercalate p.names ++ if p.slash then [separator] else []

theorem NormalPath.WellFormed.split_body (h : p.WellFormed) (hne : p.names ≠ []) :
    split p.body = p.names ++ if p.slash then [[]] else [] := by
  have hnms : split ([separator].intercalate p.names) = p.names :=
    split_intercalate hne fun name hname => (h.names.mem (mem_reverse.mpr hname)).1
  unfold NormalPath.body
  split
  · rw [split_append, hnms]
    rfl
  · rw [append_nil, append_nil, hnms]

theorem NormalPath.WellFormed.isAbsolute_body (h : p.WellFormed) (hne : p.names ≠ []) : isAbsolute p.body = false := by
  obtain ⟨name, rest, hnms⟩ := exists_cons_of_ne_nil hne
  obtain ⟨hsep, hprop⟩ := h.names.mem (mem_reverse.mpr (hnms ▸ mem_cons_self))
  obtain ⟨c, tail, rfl⟩ := exists_cons_of_ne_nil fun hnil => isProper_iff.mp hprop (.inl hnil)
  have hhead : p.body.head? = some c := by
    unfold NormalPath.body
    rw [hnms]
    cases rest with
    | nil => rfl
    | cons => rfl
  unfold isAbsolute
  rw [hhead]
  have hc : c ≠ separator := fun hc => hsep (hc ▸ mem_cons_self)
  simpa using hc

theorem NormalPath.WellFormed.lexicallyNormal_eq (h : p.WellFormed) {path : Bytes} (before : List Bytes)
    (hroot : isAbsolute path = p.rooted) (hne : p.names ≠ []) (hbef : before = [] ∨ before = [[]])
    (hsplit : split path = before ++ (p.names ++ if p.slash then [[]] else [])) : lexicallyNormal path = p := by
  have hskip : ∀ (done : List Bytes), normalStep p.rooted done [] = done := fun done => if_pos (.inl rfl)
  have hfold : (split path).foldl (normalStep p.rooted) [] = p.names.reverse := by
    have hstart : before.foldl (normalStep p.rooted) [] = [] := by
      rcases hbef with rfl | rfl
      · rfl
      · exact hskip []
    have hnms := h.names.foldl_reverse
    rw [reverse_reverse] at hnms
    rw [hsplit, foldl_append, hstart, foldl_append, hnms]
    split
    · exact hskip _
    · rfl
  have hnms : normalNames path = p.names := by
    unfold normalNames
    rw [hroot, hfold, reverse_reverse]
  have hslash : (lexicallyNormal path).slash = p.slash := by
    unfold lexicallyNormal
    dsimp only
    rw [hnms]
    cases hcase : p.slash with
    | true =>
      rw [hcase] at hsplit
      have hlast : (split path).getLast? = some [] := by rw [hsplit, if_pos rfl, ← append_assoc, List.getLast?_concat]
      rw [hlast]
      simpa using h.slash hcase
    | false =>
      rw [hcase, if_neg Bool.false_ne_true, append_nil] at hsplit
      have hlast : (split path).getLast? = p.names.getLast? := by
        rw [hsplit, List.getLast?_append_of_ne_nil _ hne]
      rw [hlast]
      obtain ⟨last, hmem⟩ := Option.isSome_iff_exists.mp (List.getLast?_isSome.mpr hne)
      obtain ⟨-, hprop⟩ := h.names.mem (mem_reverse.mpr (mem_of_getLast? hmem))
      have hprop := isProper_iff.mp hprop
      rw [hmem]
      simp only [mem_cons, Option.some.injEq, not_mem_nil, or_false]
      refine decide_eq_false ?_
      rintro ⟨-, hup, hend⟩
      rcases hend with hend | hend | hend
      · exact hprop (.inl hend)
      · exact hprop (.inr hend)
      · exact hup (congrArg some hend)
  have heq : lexicallyNormal path = ⟨isAbsolute path, normalNames path, (lexicallyNormal path).slash⟩ := rfl
  rw [heq, hslash, hnms, hroot]

theorem NormalPath.WellFormed.lexicallyNormal_toText (h : p.WellFormed) : lexicallyNormal p.toText = p := by
  have htext : p.toText = if p.rooted then separator :: p.body else if p.names = [] then dot else p.body := rfl
  by_cases hne : p.names = []
  · have hslash : p.slash = false := by
      cases hcase : p.slash with
      | true => exact absurd hne (h.slash hcase).1
      | false => rfl
    obtain ⟨rooted, names, slash⟩ := p
    dsimp only at hne hslash
    subst hne hslash
    cases rooted with
    | true => rfl
    | false => rfl
  · cases hroot : p.rooted with
    | true =>
      rw [htext, hroot, if_pos rfl]
      refine h.lexicallyNormal_eq [[]] hroot.symm hne (.inr rfl) ?_
      rw [split_separator, h.split_body hne]
      rfl
    | false =>
      rw [htext, hroot, if_neg Bool.false_ne_true, if_neg hne]
      exact h.lexicallyNormal_eq [] ((h.isAbsolute_body hne).trans hroot.symm) hne (.inl rfl) (h.split_body hne)

theorem lexicallyNormal_toText (p : Bytes) : lexicallyNormal (lexicallyNormal p).toText = lexicallyNormal p :=
  (lexicallyNormal_wellFormed p).lexicallyNormal_toText

end Brookesia.Filesystem.Path
