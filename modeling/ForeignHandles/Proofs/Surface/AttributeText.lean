import Mathlib.Data.List.Nodup
import ForeignHandles.Proofs.Surface.Faults
import ForeignHandles.Proofs.Text.Message
import ForeignHandles.Proofs.Text.Quoted

/-!
  The text of an attribute determines it.

  1. **Which kind.**  A known attribute is written as the name of its kind and then the argument.
     Names are runs of small letters and underscores, and arguments begin otherwise, so the text says
     where the name ends (`delimited_name`); no two kinds have the same name, and the kind says which
     form the argument has.  Free text begins with a quote, which no name does.

  2. **Which argument.**  Under one name, arguments of one form are written differently: numbers end
     where no digit follows, a type name reaches to the last parenthesis, whatever it contains, and
     lists of ranges are told apart by their separators (`argumentText_injective`).

  3. **What is seen.**  Nothing but a type name can bring a NUL into the text, so all of it is seen.

  Attributes of reachable worlds have passed the check of their kind, and every attribute that passes
  it is in some world.
-/
namespace ForeignHandles

namespace AttributeDef

/-- Kinds are counted from one, in the order of the catalog. -/
theorem ofKind?_eq_some {kind : UInt32} {d : AttributeDef} (h : ofKind? kind = some d) :
    ∃ i : Fin catalog.length, kind.toNat = i + 1 ∧ catalog[i] = d := by
  unfold ofKind? at h
  split at h
  · cases h
  · rename_i n hn
    obtain ⟨hlt, hd⟩ := List.getElem?_eq_some_iff.1 h
    exact ⟨⟨n, hlt⟩, hn, hd⟩

/-- Names are made of small letters and underscores. -/
def isNameChar (c : Char) : Bool := c.isLower || c = '_'

/-- Every name in the catalog is one, and none is empty. -/
theorem isNameChar_of_mem_name {d : AttributeDef} (hd : d ∈ catalog) :
    d.name.toList ≠ [] ∧ ∀ c ∈ d.name.toList, isNameChar c = true := by
  -- the catalog is a fixed list, which is gone through once
  have hall : catalog.all (fun d => !d.name.toList.isEmpty && d.name.toList.all isNameChar) := by
    decide
  simpa using List.all_eq_true.1 hall d hd

/-- No two kinds have the same name. -/
theorem nodup_knownNames : knownNames.Nodup := by decide

/-- A name ends where another character than these begins, and it is the name of one kind. -/
theorem delimited_name : Delimited (Stops isNameChar)
    (fun i : Fin catalog.length => catalog[i].name.toList) := by
  refine .of_run (fun i j hij => ?_) fun i => (isNameChar_of_mem_name (List.getElem_mem i.2)).2
  have hdef : catalog[i] = catalog[j] := List.inj_on_of_nodup_map nodup_knownNames
    (List.getElem_mem i.2) (List.getElem_mem j.2) (String.toList_inj.1 hij)
  exact Fin.ext ((List.Nodup.of_map _ nodup_knownNames).getElem_inj_iff.1 hdef)

/-- A name is not mistaken for a quoted key, -/
theorem beginsOff_name (i : Fin catalog.length) : BeginsOff '"' catalog[i].name.toList := by
  obtain ⟨hne, hchars⟩ := isNameChar_of_mem_name (List.getElem_mem i.2)
  obtain ⟨c, cs, hcs⟩ := List.exists_cons_of_ne_nil hne
  refine ⟨c, cs, hcs, ?_⟩
  rintro rfl
  have hquote : isNameChar '"' = true := hchars _ (hcs ▸ List.mem_cons_self)
  cases hquote

/-- and it has no NUL. -/
theorem nulFree_name (i : Fin catalog.length) : NulFree catalog[i].name := by
  intro hmem
  have hnul : isNameChar '\x00' = true :=
    (isNameChar_of_mem_name (List.getElem_mem i.2)).2 _ hmem
  cases hnul

end AttributeDef

namespace Attribute

open AttributeDef (catalog)

variable {a b : Attribute} {name text : String}

/-! ## Kinds

Which kind an attribute is of decides its form, and an attribute that has passed the check has a
kind in the catalog. -/

/-- A known attribute is written as the name of its kind, then its argument. -/
theorem print_known (hcheck : a.check = true) (hknown : a.form? ≠ none) :
    ∃ i : Fin catalog.length, a.kind.toNat = i + 1 ∧ a.form? = some catalog[i].argument ∧
      a.print = .ok (catalog[i].name ++ argumentText catalog[i].name a) := by
  obtain ⟨form, hform⟩ := Option.ne_none_iff_exists'.1 hknown
  -- a known attribute has a form, and the check compares it with that of the kind
  have htakes : AttributeDef.takes a.kind form = true := by simpa [check, hform] using hcheck
  obtain ⟨d, hd, hname⟩ := AttributeDef.nameOfKind_of_takes htakes
  obtain ⟨i, hi, rfl⟩ := AttributeDef.ofKind?_eq_some hd
  refine ⟨i, hi, ?_, ?_⟩
  · rw [hform]
    simpa [AttributeDef.takes, hd, eq_comm] using htakes
  · cases a with
    | text key value => exact absurd rfl hknown
    | _ =>
      simp only [print, kind] at hname ⊢
      rw [hname]
      rfl

/-! ## Arguments

Each form writes its argument behind the name in a way of its own. All of them begin with a
parenthesis, an equals sign or nothing, so the name in front is over. -/

/-- An argument begins with something that cannot go on with a name. -/
theorem stops_argumentText (name : String) (a : Attribute) :
    Stops AttributeDef.isNameChar (argumentText name a).toList := by
  cases a with
  | enum | text => exact .nil _
  | int kind value =>
    rw [argumentText]
    split
    · rw [String.toList_append]
      exact .cons (by decide) _
    · rw [String.toList_append, String.toList_append]
      exact .cons (by decide) _
  | _ =>
    simp only [argumentText, String.toList_append]
    exact .cons (by decide) _

/-- Two bounds end where no digit follows, -/
theorem delimited_bounds :
    Delimited (Stops Char.isDigit) (fun r : Int64 × Int64 => (boundsText r.1 r.2).toList) := by
  -- a bound is a number, and its text ends where no digit follows
  have hbound : Delimited (Stops Char.isDigit) (fun n : Int64 => (toString n.toInt).toList) :=
    delimited_int.comap fun _ _ => Int64.toInt_inj.1
  have htext (r : Int64 × Int64) : (boundsText r.1 r.2).toList =
      (toString r.1.toInt).toList ++ ([',', ' '] ++ (toString r.2.toInt).toList) := by
    rw [boundsText, String.toList_append, String.toList_append, List.append_assoc]
    rfl
  simp only [htext]
  exact hbound.pair (hbound.behind [',', ' ']) fun _ _ => .cons (by decide) _

/-- with a width before them they end at a parenthesis, -/
theorem delimited_range : Delimited Anything (fun r : UInt32 × Int64 × Int64 =>
    (toString r.1 ++ " " ++ boundsText r.2.1 r.2.2 ++ ")").toList) := by
  have hwidth : Delimited (Stops Char.isDigit) (fun n : UInt32 => (toString n.toNat).toList) :=
    delimited_nat.comap fun _ _ => UInt32.toNat_inj.1
  have htext (r : UInt32 × Int64 × Int64) :
      (toString r.1 ++ " " ++ boundsText r.2.1 r.2.2 ++ ")").toList =
        (toString r.1.toNat).toList ++ ([' '] ++ (boundsText r.2.1 r.2.2).toList) ++ [')'] := by
    rw [String.toList_append, String.toList_append, String.toList_append,
      List.append_assoc (toString r.1).toList]
    rfl
  simp only [htext]
  exact (hwidth.pair (delimited_bounds.behind [' ']) fun _ _ => .cons (by decide) _).enclosed
    fun _ => .cons (by decide) _

/-- and a list of bounds in parentheses ends at a parenthesis of its own. -/
theorem delimited_ranges : Delimited Anything (fun ranges : List (Int64 × Int64) =>
    (", ".intercalate (ranges.map (fun r => "(" ++ boundsText r.1 r.2 ++ ")")) ++ ")").toList) := by
  -- each pair has parentheses of its own, and none of the others begins with a closing one
  have hitem : Delimited Anything
      (fun r : Int64 × Int64 => ("(" ++ boundsText r.1 r.2 ++ ")").toList) := by
    simp only [String.toList_append]
    exact (delimited_bounds.behind ['(']).enclosed fun _ => .cons (by decide) _
  have hbegins (r : Int64 × Int64) : BeginsOff ')' ("(" ++ boundsText r.1 r.2 ++ ")").toList := by
    rw [String.toList_append, String.toList_append]
    exact ⟨_, _, rfl, by decide⟩
  have hlist : Delimited Anything (fun ranges : List (Int64 × Int64) => [',', ' '].intercalate
      (ranges.map (fun r => ("(" ++ boundsText r.1 r.2 ++ ")").toList)) ++ [')']) :=
    hitem.separated_list hbegins (by decide) fun _ _ _ => trivial
  simpa [String.toList_intercalate, Function.comp_def] using hlist

/-- Under one name, arguments of one form are told apart by their texts. -/
theorem argumentText_injective (hkind : a.kind = b.kind) (hform : a.form? = b.form?)
    (hknown : a.form? ≠ none) (htext : argumentText name a = argumentText name b) : a = b := by
  have hlist : (argumentText name a).toList = (argumentText name b).toList := by rw [htext]
  cases a with
  | text => exact absurd rfl hknown
  -- the kind is all there is
  | enum kind =>
    cases b with
    | enum kind' =>
      obtain rfl : kind = kind' := hkind
      rfl
    | _ => cases hform
  | int kind value =>
    cases b with
    | int kind' value' =>
      obtain rfl : kind = kind' := hkind
      have hvalue : value = value' := by
        -- the two ways of writing a number differ by the name, which is the same here
        have hinj : Function.Injective (fun n : UInt64 => (toString n).toList) :=
          (delimited_nat.comap fun m n : UInt64 => UInt64.toNat_inj.1).injective (.nil _)
        apply hinj
        rw [argumentText, argumentText] at hlist
        split at hlist
        · simpa using hlist
        · simpa using hlist
      rw [hvalue]
    | _ => cases hform
  | type kind typeName =>
    cases b with
    | type kind' typeName' =>
      obtain rfl : kind = kind' := hkind
      -- the parentheses are the same, so what is inside is, whatever it contains
      have htype : typeName = typeName' := by
        apply String.toList_inj.1
        simpa [argumentText] using hlist
      rw [htype]
    | _ => cases hform
  | range kind bits lower upper =>
    cases b with
    | range kind' bits' lower' upper' =>
      obtain rfl : kind = kind' := hkind
      have hrange : (bits, lower, upper) = (bits', lower', upper') := by
        apply delimited_range.injective trivial
        simpa [argumentText] using hlist
      cases hrange
      rfl
    | _ => cases hform
  | rangeList kind ranges =>
    cases b with
    | rangeList kind' ranges' =>
      obtain rfl : kind = kind' := hkind
      have hranges : ranges = ranges' := by
        apply delimited_ranges.injective trivial
        simpa [argumentText] using hlist
      rw [hranges]
    | _ => cases hform

/-! ## Free text

A key and a value, both quoted. An empty value is left out together with its sign, and a quoted
one is never empty. -/

/-- What stands after the key. -/
def valueText (value : String) : String := if value.isEmpty then "" else "=" ++ quote value

/-- What has no form is free text. -/
theorem eq_text_of_form (h : a.form? = none) : ∃ key value, a = .text key value := by
  cases a with
  | text key value => exact ⟨key, value, rfl⟩
  | _ => cases h

/-- Free text is the quoted key and then the value. -/
theorem print_text (key value : String) :
    (Attribute.text key value).print = .ok (quote key ++ valueText value) := by
  rw [print, valueText]
  split
  · rw [String.append_empty]
  · rw [String.append_assoc]

/-- The value can be told from what stands after the key. -/
theorem valueText_injective : Function.Injective valueText := by
  intro s t h
  unfold valueText at h
  split at h
  · rename_i hs
    split at h
    -- both are left out, or both are quoted
    · rename_i ht
      rw [String.isEmpty_iff.1 hs, String.isEmpty_iff.1 ht]
    · exact absurd h (by simp)
  · split at h
    · exact absurd h (by simp)
    · have hquote : (quote s).toList = (quote t).toList := by
        simpa using congrArg String.toList h
      exact delimited_quote.injective trivial hquote

/-! ## The text as a whole

Two attributes are both known or both free text, or the first character tells them apart. -/

/-- Free text begins with a quote, and no name of a kind does. -/
theorem freeText_ne_known (key value rest : String) (i : Fin catalog.length) :
    quote key ++ valueText value ≠ catalog[i].name ++ rest := by
  intro h
  have hlist := congrArg String.toList h
  rw [String.toList_append, String.toList_append, toList_quote, List.append_assoc] at hlist
  exact (AttributeDef.beginsOff_name i).ne _ _ hlist.symm

/-- Attributes that have passed the check of their kind are told apart by their texts. -/
theorem print_injective (ha : a.check = true) (hb : b.check = true) (h : a.print = b.print) :
    a = b := by
  by_cases hknown : a.form? = none
  · obtain ⟨key, value, rfl⟩ := eq_text_of_form hknown
    -- one of them is free text; is the other?
    by_cases hknown' : b.form? = none
    · obtain ⟨key', value', rfl⟩ := eq_text_of_form hknown'
      rw [print_text, print_text] at h
      have hlist := congrArg String.toList (Except.ok.inj h)
      rw [String.toList_append, String.toList_append] at hlist
      obtain ⟨rfl, hrest⟩ := delimited_quote trivial trivial hlist
      rw [valueText_injective (String.toList_inj.1 hrest)]
    · obtain ⟨j, -, -, hprint⟩ := print_known hb hknown'
      rw [print_text, hprint] at h
      exact absurd (Except.ok.inj h) (freeText_ne_known key value _ _)
  · obtain ⟨i, hkind, hform, hprint⟩ := print_known ha hknown
    by_cases hknown' : b.form? = none
    · obtain ⟨key, value, rfl⟩ := eq_text_of_form hknown'
      rw [print_text, hprint] at h
      exact absurd (Except.ok.inj h).symm (freeText_ne_known key value _ _)
    · obtain ⟨j, hkind', hform', hprint'⟩ := print_known hb hknown'
      rw [hprint, hprint'] at h
      have hlist := congrArg String.toList (Except.ok.inj h)
      rw [String.toList_append, String.toList_append] at hlist
      -- the names are the same, and so are the arguments behind them
      obtain ⟨rfl, hrest⟩ := AttributeDef.delimited_name (stops_argumentText _ a)
        (stops_argumentText _ b) hlist
      exact argumentText_injective (UInt32.toNat_inj.1 (hkind.trans hkind'.symm))
        (hform.trans hform'.symm) hknown (String.toList_inj.1 hrest)

/-! ## What is seen of it

Callers get the text as a string that ends at the first NUL. Numbers and names have none, and
quoting escapes it; only the name of a type is written as it is. -/

/-- The name of a type, where the argument is one. -/
def typeName? : Attribute → Option String
  | .type _ typeName => some typeName
  | _ => none

/-- No NUL comes from a type name. -/
def NulFreeType (a : Attribute) : Prop := ∀ typeName ∈ a.typeName?, NulFree typeName

/-- Bounds are two numbers and a comma. -/
theorem nulFree_boundsText (lower upper : Int64) : NulFree (boundsText lower upper) :=
  ((NulFree.integer lower.toInt).append (by decide)).append (.integer upper.toInt)

/-- An argument has no NUL if the name of its type, should it have one, has none. -/
theorem nulFree_argumentText (h : a.NulFreeType) : NulFree (argumentText name a) := by
  have hopen : NulFree "(" := by decide
  have hclose : NulFree ")" := by decide
  cases a with
  | enum | text => exact (by decide : NulFree "")
  | int kind value =>
    have hvalue : NulFree (toString value) := .natural value.toNat
    rw [argumentText]
    split
    · exact NulFree.append (by decide) hvalue
    · exact (hopen.append hvalue).append hclose
  | type kind typeName => exact (hopen.append (h typeName rfl)).append hclose
  | range kind bits lower upper =>
    have hbits : NulFree ("(i" ++ toString bits) := NulFree.append (by decide) (.natural bits.toNat)
    exact ((hbits.append (by decide)).append (nulFree_boundsText lower upper)).append hclose
  | rangeList kind ranges =>
    refine (hopen.append (.intercalate (by decide) fun s hs => ?_)).append hclose
    obtain ⟨r, -, rfl⟩ := List.mem_map.1 hs
    exact (hopen.append (nulFree_boundsText r.1 r.2)).append hclose

/-- The whole text then has none either. -/
theorem nulFree_print (hcheck : a.check = true) (h : a.NulFreeType)
    (hprint : a.print = .ok text) :
    NulFree text := by
  by_cases hknown : a.form? = none
  · obtain ⟨key, value, rfl⟩ := eq_text_of_form hknown
    rw [print_text] at hprint
    obtain rfl := Except.ok.inj hprint
    refine (nulFree_quote key).append ?_
    unfold valueText
    split
    · decide
    · exact NulFree.append (by decide) (nulFree_quote value)
  · obtain ⟨i, -, -, hprint'⟩ := print_known hcheck hknown
    obtain rfl := Except.ok.inj (hprint'.symm.trans hprint)
    exact (AttributeDef.nulFree_name i).append (nulFree_argumentText h)

end Attribute

namespace Store

/-- An attribute that is there has passed its check. -/
theorem AttributesChecked.check {s : Store} (hs : s.AttributesChecked) {h : Handle .attribute}
    {a : Attribute} (ha : s.attribute? h = some a) : a.check = true := by
  obtain ⟨x, hx, rfl⟩ := Option.map_eq_some_iff.1 ha
  obtain ⟨r, rfl, hr⟩ := Option.bind_eq_some_iff.1 hx
  exact hs r x hr

end Store

namespace Surface

/-- What is accepted is in some world. -/
theorem exists_reachable_of_make {a : Attribute} (h : a.make = .ok a) :
    ∃ w h, Reachable w ∧ w.host.store.attribute? h = some a := by
  refine ⟨_, some ⟨0⟩, .operate (.edit ⟨0⟩ (.createAttribute a)) reachable_opened, ?_⟩
  simp only [HostOperation.perform, Store.edit, Store.createAttribute, h]
  rfl

/-- **The text of an attribute determines it.**

The attributes of reachable worlds are those that are accepted.  Every one of them has a text, and two
whose type names, if any, have no NUL are seen as the same text exactly if they are the same: of the
same form and kind, with the same argument, or with the same key and value. -/
theorem attribute_text_determines_attribute :
    (∀ a : Attribute, a.make = .ok a ↔ ∃ w h, Reachable w ∧ w.host.store.attribute? h = some a) ∧
    ∀ (w w' : World) (h h' : Handle .attribute) (a b : Attribute) (spell spell' : Spelling),
      Reachable w → Reachable w' → w.host.store.attribute? h = some a →
      w'.host.store.attribute? h' = some b →
      ∃ m m', (StoreQuery.attributeToString h).answer w.host.store spell = .ok (some m) ∧
        (StoreQuery.attributeToString h').answer w'.host.store spell' = .ok (some m') ∧
        (a.NulFreeType → b.NulFreeType → (m.visible = m'.visible ↔ a = b)) := by
  have hchecked {w : World} {h : Handle .attribute} {a : Attribute} (hw : Reachable w)
      (ha : w.host.store.attribute? h = some a) : a.check = true :=
    (attributesChecked_of_reachable hw).check ha
  refine ⟨fun a => ⟨exists_reachable_of_make, fun ⟨w, h, hw, ha⟩ => ?_⟩, ?_⟩
  · exact (Attribute.make_eq_ok_iff a a).2 ⟨hchecked hw ha, rfl⟩
  · intro w w' h h' a b spell spell' hw hw' ha hb
    obtain ⟨text, htext⟩ := Attribute.print_isOk_of_check (hchecked hw ha)
    obtain ⟨text', htext'⟩ := Attribute.print_isOk_of_check (hchecked hw' hb)
    refine ⟨.ofString text, .ofString text', ?_, ?_, fun hfree hfree' => ⟨fun hvisible => ?_, ?_⟩⟩
    · simp [StoreQuery.answer, Store.attributeMessage, ha, htext, Except.map]
    · simp [StoreQuery.answer, Store.attributeMessage, hb, htext', Except.map]
    · have hsame : text = text' := Message.eq_of_visible_eq
        (Attribute.nulFree_print (hchecked hw ha) hfree htext)
        (Attribute.nulFree_print (hchecked hw' hb) hfree' htext') hvisible
      have hprint : a.print = b.print := by rw [htext, htext', hsame]
      exact Attribute.print_injective (hchecked hw ha) (hchecked hw' hb) hprint
    · rintro rfl
      rw [Except.ok.inj (htext.symm.trans htext')]

/-- Two attributes of free text: a key with a value, and a key alone that reads like the two. -/
def quotedWorld : World where
  host := { Host.opened with
    store := [.createAttribute (.text "a" "b"), .createAttribute (.text "a\"=\"b" "")].foldl
      (·.edit ⟨0⟩) Host.opened.store }

/-- The quotes within the second key are escaped, so the two are not seen as the same text. -/
theorem quotedWorld_told_apart :
    Reachable quotedWorld ∧ ∃ m m',
      quotedWorld.host.store.attributeMessage (some ⟨0⟩) = .ok (some m) ∧
      quotedWorld.host.store.attributeMessage (some ⟨1⟩) = .ok (some m') ∧
      m.visible ≠ m'.visible := by
  have hw : Reachable quotedWorld := reachable_foldl_edit ⟨0⟩ _ reachable_opened
  let spell : Spelling := ⟨fun _ => "v", fun _ => "md", fun _ => "dl"⟩
  obtain ⟨m, m', hm, hm', hiff⟩ := attribute_text_determines_attribute.2 quotedWorld quotedWorld
    (some ⟨0⟩) (some ⟨1⟩) (.text "a" "b") (.text "a\"=\"b" "") spell spell hw hw rfl rfl
  have hne : Attribute.text "a" "b" ≠ .text "a\"=\"b" "" := by decide
  exact ⟨hw, m, m', hm, hm', fun hvisible => hne ((hiff nofun nofun).1 hvisible)⟩

end Surface

end ForeignHandles
