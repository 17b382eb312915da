import ForeignHandles.ObjectFile

/-!
  What a file is built from, read as a script.

  Building goes through a script item by item and changes the last section again and again.  Reading
  goes the other way: a section has the relocations that come after it and before the next one.  The
  two agree (`build_eq`), and a script cannot be built exactly if a relocation comes before all
  sections.

  The reading has no state, which is what makes it a description. Building has one, the file so far,
  and its last section is the one that the next relocation goes to. So the induction distinguishes
  whether there is a section yet (`foldlM_add`, `foldlM_add_symbols`).
-/
namespace ForeignHandles.Script

/-- The relocations of a script before its next section. -/
def leading : List ObjectItem → List Relocation
  | [] => []
  | .addSection _ _ _ :: _ => []
  | .addRelocation r :: items => r :: leading items
  | .addSymbol _ :: items => leading items

/-- The sections of a script, each with the relocations after it and before the next one. -/
def sections : List ObjectItem → List Section
  | [] => []
  | .addSection name address contents :: items =>
    { name, address, contents, relocations := leading items } :: sections items
  | .addRelocation _ :: items => sections items
  | .addSymbol _ :: items => sections items

/-- The symbols of a script. -/
def symbols : List ObjectItem → List Symbol
  | [] => []
  | .addSection _ _ _ :: items => symbols items
  | .addRelocation _ :: items => symbols items
  | .addSymbol symbol :: items => symbol :: symbols items

/-- What a script describes. -/
def file (items : List ObjectItem) : ObjectFile := ⟨sections items, symbols items⟩

/-- A relocation goes to the last section. -/
theorem relocateLast_append (r : Relocation) (xs : List Section) (x : Section) :
    ObjectFile.relocateLast r (xs ++ [x]) =
      .ok (xs ++ [{ x with relocations := x.relocations ++ [r] }]) := by
  induction xs with
  | nil => rfl
  | cons y ys ih =>
    cases ys with
    | nil => rfl
    | cons z zs =>
      simp only [List.cons_append] at ih ⊢
      rw [ObjectFile.relocateLast, ih]
      · rfl
      · simp

/-- Once there is a section, building goes through. -/
theorem foldlM_add (items : List ObjectItem) (xs : List Section) (x : Section)
    (ys : List Symbol) :
    items.foldlM ObjectFile.add ⟨xs ++ [x], ys⟩ =
      .ok ⟨xs ++ { x with relocations := x.relocations ++ leading items } :: sections items,
        ys ++ symbols items⟩ := by
  induction items generalizing xs x ys with
  | nil => simp [leading, sections, symbols, pure, Except.pure]
  | cons item items ih =>
    rw [List.foldlM_cons]
    cases item with
    -- the new section is the last one from here on, and the one before is complete
    | addSection name address contents =>
      refine (ih (xs ++ [x]) { name, address, contents } ys).trans ?_
      simp [leading, sections, symbols]
    | addRelocation r =>
      -- the relocation goes to the last section, and others may follow
      have hadd : ObjectFile.add ⟨xs ++ [x], ys⟩ (.addRelocation r) =
          .ok ⟨xs ++ [{ x with relocations := x.relocations ++ [r] }], ys⟩ := by
        rw [ObjectFile.add, relocateLast_append]
        rfl
      rw [hadd]
      refine (ih xs { x with relocations := x.relocations ++ [r] } ys).trans ?_
      simp [leading, sections, symbols]
    | addSymbol symbol =>
      refine (ih xs x (ys ++ [symbol])).trans ?_
      simp [leading, sections, symbols]

/-- Before the first section, a relocation is a fault. -/
theorem foldlM_add_symbols (items : List ObjectItem) (ys : List Symbol) :
    items.foldlM ObjectFile.add ⟨[], ys⟩ =
      if leading items = [] then .ok ⟨sections items, ys ++ symbols items⟩
      else .error .relocationWithoutSection := by
  induction items generalizing ys with
  | nil => simp [leading, sections, symbols, pure, Except.pure]
  | cons item items ih =>
    rw [List.foldlM_cons]
    cases item with
    | addSection name address contents =>
      refine (foldlM_add items [] { name, address, contents } ys).trans ?_
      simp [leading, sections, symbols]
    -- there is no section for it
    | addRelocation r => rfl
    | addSymbol symbol =>
      refine (ih (ys ++ [symbol])).trans ?_
      by_cases h : leading items = [] <;> simp [leading, sections, symbols, h]

/-- A file has what its script describes, and only scripts with a relocation before all sections
cannot be built. -/
theorem build_eq (items : List ObjectItem) :
    ObjectFile.build items =
      if leading items = [] then .ok (file items) else .error .relocationWithoutSection :=
  foldlM_add_symbols items []

end ForeignHandles.Script
