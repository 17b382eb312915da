import ForeignHandles.Error

/-!
  The catalog of known attributes.

  A known attribute has a kind: its place in the catalog, counted from one. Kind zero is the kind
  of no attribute, and so the kind of free-text attributes; it has a name but no definition. The
  catalog is grouped by form of argument, each group sorted by name.
-/
namespace ForeignHandles

/-- What the catalog holds about an attribute: its argument, and where it may stand. -/
structure AttributeDef where
  name : String
  argument : AttributeArgument
  onFunction : Bool
  onParameter : Bool
  onReturn : Bool

namespace AttributeDef

/-- The known attributes, from kind one on. -/
def catalog : List AttributeDef :=
  [⟨"alwaysinline", .none, true, false, false⟩,
   ⟨"builtin", .none, true, false, false⟩,
   ⟨"cold", .none, true, false, false⟩,
   ⟨"convergent", .none, true, false, false⟩,
   ⟨"hot", .none, true, false, false⟩,
   ⟨"inlinehint", .none, true, false, false⟩,
   ⟨"inreg", .none, false, true, true⟩,
   ⟨"minsize", .none, true, false, false⟩,
   ⟨"naked", .none, true, false, false⟩,
   ⟨"nest", .none, false, true, false⟩,
   ⟨"noalias", .none, false, true, true⟩,
   ⟨"noinline", .none, true, false, false⟩,
   ⟨"nonnull", .none, false, true, true⟩,
   ⟨"norecurse", .none, true, false, false⟩,
   ⟨"noreturn", .none, true, false, false⟩,
   ⟨"nounwind", .none, true, false, false⟩,
   ⟨"optnone", .none, true, false, false⟩,
   ⟨"optsize", .none, true, false, false⟩,
   ⟨"readnone", .none, false, true, false⟩,
   ⟨"readonly", .none, false, true, false⟩,
   ⟨"returned", .none, false, true, false⟩,
   ⟨"signext", .none, false, true, true⟩,
   ⟨"ssp", .none, true, false, false⟩,
   ⟨"willreturn", .none, true, false, false⟩,
   ⟨"zeroext", .none, false, true, true⟩,
   ⟨"byref", .type, false, true, false⟩,
   ⟨"byval", .type, false, true, false⟩,
   ⟨"elementtype", .type, false, true, false⟩,
   ⟨"inalloca", .type, false, true, false⟩,
   ⟨"preallocated", .type, true, true, false⟩,
   ⟨"sret", .type, false, true, false⟩,
   ⟨"align", .int, false, true, true⟩,
   ⟨"allocsize", .int, true, false, false⟩,
   ⟨"alignstack", .int, true, true, false⟩,
   ⟨"dereferenceable", .int, false, true, true⟩,
   ⟨"dereferenceable_or_null", .int, false, true, true⟩,
   ⟨"memory", .int, true, false, false⟩,
   ⟨"uwtable", .int, true, false, false⟩,
   ⟨"vscale_range", .int, true, false, false⟩,
   ⟨"range", .constantRange, false, true, true⟩,
   ⟨"initializes", .constantRangeList, false, true, false⟩]

/-- The number of known attributes. -/
def knownCount : Nat := catalog.length

/-- The first kind that is not in use. -/
def endKind : UInt32 := UInt32.ofNat (catalog.length + 1)

/-- The names of the known attributes in order of kind. -/
def knownNames : List String := catalog.map (·.name)

/-- The definition of a kind. -/
def ofKind? (kind : UInt32) : Option AttributeDef :=
  match kind.toNat with
  | 0 => none
  | n + 1 => catalog[n]?

/-- The kind with a name. -/
def kindOfName? (name : String) : Option UInt32 :=
  (catalog.findIdx? (fun d => d.name == name)).map (fun i => UInt32.ofNat (i + 1))

/-- The name of a kind. Asking beyond the catalog is a fault. -/
def nameOfKind (kind : UInt32) : Except Fault String :=
  if kind < endKind then .ok (((ofKind? kind).map (·.name)).getD "none")
  else .error (.attributeKind kind)

/-- Whether a kind takes the given form of argument. -/
def takes (kind : UInt32) (argument : AttributeArgument) : Bool :=
  (ofKind? kind).any (fun d => d.argument = argument)

/-- A kind that takes some argument is in the catalog, so it has a name. -/
theorem nameOfKind_of_takes {kind : UInt32} {argument : AttributeArgument}
    (h : takes kind argument = true) :
    ∃ d, ofKind? kind = some d ∧ nameOfKind kind = .ok d.name := by
  unfold takes at h
  obtain ⟨d, hd⟩ : ∃ d, ofKind? kind = some d := by
    cases hd : ofKind? kind with
    | none => simp [hd] at h
    | some d => exact ⟨d, rfl⟩
  refine ⟨d, hd, ?_⟩
  have hlt : kind < endKind := by
    unfold ofKind? at hd
    split at hd
    · simp at hd
    · rename_i n hn
      obtain ⟨hlt, _⟩ := List.getElem?_eq_some_iff.1 hd
      rw [UInt32.lt_iff_toNat_lt, hn]
      have hl : catalog.length = 41 := rfl
      have he : endKind.toNat = 42 := rfl
      omega
  simp [nameOfKind, hlt, hd]

end AttributeDef

end ForeignHandles
