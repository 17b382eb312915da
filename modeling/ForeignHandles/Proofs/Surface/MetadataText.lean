import ForeignHandles.Proofs.Store.Nodes
import ForeignHandles.Proofs.Surface.Entries
import ForeignHandles.Proofs.Text.Message
import ForeignHandles.Proofs.Text.Quoted

/-!
  The text of a string or a node determines what it shows.

  Of an operand, the text of a node shows that it is empty, or the text that it is a string of, or
  which node it is; nothing that is within that node.  This is the `Face` of metadata, and wrappers,
  whose text is that of any value, have none.

  1. **The text is that of the face** (`metadataText_of_face?`), so it is the same wherever the face
     is: in circles, and whatever becomes of the nodes in the operands (`metadataMessage_onNode`).

  2. **The face can be read off.**  An operand says by itself where it ends: quoted text does,
     whatever it contains, and an identity ends at a bracket that is not in it.  What comes first
     tells a list that goes on from one that is over (`Face.text_injective`).

  3. **What is seen.**  No NUL comes into the text, so all of it is seen.
-/
namespace ForeignHandles

/-! ## Faces

A face is finite whatever the graph is like, for it goes one step down: a node in an operand is
shown by its identity. It is also all that the text can depend on. -/

/-- What the text of a node shows of an operand. -/
inductive OperandFace where
  | empty
  | string (text : String)
  | node (which : Ref .metadata)
  deriving DecidableEq

/-- What the text of metadata shows of it. -/
inductive Face where
  | string (text : String)
  | node (distinct : Bool) (operands : List OperandFace)
  deriving DecidableEq

namespace Store

/-- What is shown of an operand; there is no such thing for wrappers. -/
def operandFace? (s : Store) : Handle .metadata → Option OperandFace
  | none => some .empty
  | some d => (s.metadata.get? d).bind fun m =>
    match m.body with
    | .string text => some (.string text)
    | .node _ => some (.node d)
    | .value _ _ => none

/-- What is shown of a string, or of a node whose operands are empty, strings or nodes. -/
def face? (s : Store) (d : Ref .metadata) : Option Face :=
  (s.metadata.get? d).bind fun m =>
    match m.body with
    | .string text => some (.string text)
    | .node n => (n.operands.mapM s.operandFace?).map (.node (n.storage = .distinct))
    | .value _ _ => none

end Store

/-! ## Faces in print

How identities are written is up to the caller, who prints addresses; it only has to tell them
apart and keep to characters that do not close the bracket. -/

variable {spell : Ref .metadata → String}

/-- Identities are told apart by how they are written, and they have no bracket or NUL in them. -/
structure TellsApart (spell : Ref .metadata → String) : Prop where
  injective : Function.Injective spell
  chars : ∀ d, ∀ c ∈ (spell d).toList, c ≠ '>' ∧ c ≠ '\x00'

/-- How an operand is written, -/
def OperandFace.text (spell : Ref .metadata → String) : OperandFace → String
  | .empty => "null"
  | .string text => "!" ++ quote text
  | .node d => "!<" ++ spell d ++ ">"

/-- and how a string or a node is. -/
def Face.text (spell : Ref .metadata → String) : Face → String
  | .string text => "!" ++ quote text
  | .node distinct operands =>
    (if distinct then "distinct " else "") ++
      "!\x7b" ++ ", ".intercalate (operands.map (·.text spell)) ++ "\x7d"

/-- If all of a list is found, then what is computed from what is found is computed from the list.
-/
theorem map_of_mapM {α β γ : Type} {f : α → Option β} {g : α → γ} {k : β → γ}
    (hfg : ∀ a b, f a = some b → g a = k b) {as : List α} {bs : List β}
    (h : as.mapM f = some bs) : as.map g = bs.map k := by
  induction as generalizing bs with
  | nil =>
    cases h
    rfl
  | cons a as ih =>
    simp only [List.mapM_cons, Option.bind_eq_bind, Option.bind_eq_some_iff, Option.pure_def,
      Option.some.injEq] at h
    obtain ⟨b, hb, bs, hbs, rfl⟩ := h
    rw [List.map_cons, List.map_cons, hfg a b hb, ih hbs]

namespace Store

variable {s : Store} {d : Ref .metadata} {m : Metadata}

/-- The text of an operand that has a face is the text of its face. -/
theorem operandText_of_face? {target : Handle .metadata} {x : OperandFace}
    (hx : s.operandFace? target = some x) : s.operandText spell target = x.text spell := by
  cases target with
  | none =>
    cases hx
    rfl
  | some d =>
    obtain ⟨m, hm, hx⟩ := Option.bind_eq_some_iff.1 hx
    cases hb : m.body with
    | value target isLocal =>
      rw [hb] at hx
      cases hx
    | _ =>
      rw [hb] at hx
      cases hx
      simp only [operandText, metadata?, Option.bind_some, hm, hb, leafText, OperandFace.text]

/-- The text of metadata that has a face is the text of its face. -/
theorem metadataText_of_face? {x : Face} (hm : s.metadata.get? d = some m)
    (hx : s.face? d = some x) : s.metadataText spell m = x.text spell := by
  rw [face?, hm, Option.bind_some] at hx
  cases hb : m.body with
  | value target isLocal =>
    rw [hb] at hx
    cases hx
  | string text =>
    rw [hb] at hx
    cases hx
    simp only [metadataText, hb, leafText, Face.text]
  | node n =>
    rw [hb] at hx
    obtain ⟨operands, hoperands, rfl⟩ := Option.map_eq_some_iff.1 hx
    have htexts : n.operands.map (s.operandText spell) = operands.map (·.text spell) :=
      map_of_mapM (fun _ _ => operandText_of_face?) hoperands
    simp only [metadataText, hb, nodeText, Face.text, htexts, decide_eq_true_eq]

/-! ## What a text does not depend on

A node in an operand is shown by its identity, so changing that node, its operands or its storage,
does not show. -/

/-- What is shown of an operand is not changed by a change of any node. -/
theorem operandText_onNode (s : Store) (e : Ref .metadata) (f : Node → Node)
    (target : Handle .metadata) :
    (s.onNode e f).operandText spell target = s.operandText spell target := by
  cases target with
  | none => rfl
  | some d =>
    cases hm : s.metadata.get? d with
    | none => simp only [operandText, metadata?, Option.bind_some, get?_onNode, hm, Option.map_none]
    | some m =>
      simp only [operandText, metadata?, Option.bind_some, get?_onNode, hm, Option.map_some]
      by_cases hde : d = e
      · -- it is a node after the change if it was one before, and otherwise it has not changed
        rw [if_pos hde]
        cases hb : m.body <;> simp only [Metadata.mapNode, hb] <;> rfl
      · rw [if_neg hde]
        rfl

/-- The text of metadata is the same whatever becomes of other nodes. -/
theorem metadataMessage_onNode {e : Ref .metadata} (hde : d ≠ e) (f : Node → Node) :
    (s.onNode e f).metadataMessage spell (some d) = s.metadataMessage spell (some d) := by
  have hget : (s.onNode e f).metadata.get? d = s.metadata.get? d := by
    simp [get?_onNode, hde]
  have htext (m : Metadata) : (s.onNode e f).metadataText spell m = s.metadataText spell m := by
    have hoperands : (s.onNode e f).operandText spell = s.operandText spell :=
      funext (s.operandText_onNode e f)
    unfold metadataText
    split
    · rw [nodeText, nodeText, hoperands]
    · rfl
  simp only [metadataMessage, metadata?, Option.bind_some, hget, htext]

end Store

/-! ## Reading a face off its text

Three sorts of operands with three ways to begin, a separator between them and a brace at the
end. -/

/-- The characters of the three sorts. -/
theorem OperandFace.toList_text (x : OperandFace) : (x.text spell).toList =
    match x with
    | .empty => ['n', 'u', 'l', 'l']
    | .string text => '!' :: (quote text).toList
    | .node d => '!' :: '<' :: ((spell d).toList ++ ['>']) := by
  cases x <;> simp [OperandFace.text]

/-- No operand begins like the end of the list. -/
theorem OperandFace.beginsOff_text (x : OperandFace) : BeginsOff '\x7d' (x.text spell).toList := by
  rw [OperandFace.toList_text]
  cases x with
  | empty => exact ⟨_, _, rfl, by decide⟩
  | string => exact ⟨_, _, rfl, by decide⟩
  | node => exact ⟨_, _, rfl, by decide⟩

/-- Quotes and brackets say where an operand ends, -/
theorem OperandFace.delimited_text (hspell : TellsApart spell) :
    Delimited Anything (fun x : OperandFace => (x.text spell).toList) := by
  have hnode : Delimited Anything (fun d => (spell d).toList ++ ['>']) := by
    -- an identity goes up to the bracket, since it has none in it
    have hrun : Delimited (Stops (· ≠ '>')) (fun d => (spell d).toList) :=
      .of_run (fun _ _ heq => hspell.injective (String.toList_inj.1 heq))
        fun d c hc => decide_eq_true (hspell.chars d c hc).1
    exact hrun.enclosed fun r => .cons (by decide) r
  intro x y r t _ _ heq
  simp only [OperandFace.toList_text] at heq
  cases x with
  | empty =>
    cases y with
    | empty => exact ⟨rfl, List.append_cancel_left heq⟩
    | _ => simp at heq
  | string text =>
    cases y with
    | string text' =>
      obtain ⟨rfl, hrest⟩ := delimited_quote.behind ['!'] trivial trivial heq
      exact ⟨rfl, hrest⟩
    | _ => simp [toList_quote] at heq
  | node d =>
    cases y with
    | node d' =>
      obtain ⟨rfl, hrest⟩ := hnode.behind ['!', '<'] trivial trivial heq
      exact ⟨rfl, hrest⟩
    | _ => simp [toList_quote] at heq

/-- and a list of operands ends at a brace of its own. -/
theorem delimited_operands (hspell : TellsApart spell) :
    Delimited Anything (fun operands : List OperandFace =>
      (", ".intercalate (operands.map (·.text spell))).toList ++ ['\x7d']) := by
  have hlist : Delimited Anything (fun operands : List OperandFace =>
      [',', ' '].intercalate (operands.map (fun x => (x.text spell).toList)) ++ ['\x7d']) :=
    (OperandFace.delimited_text hspell).separated_list OperandFace.beginsOff_text (by decide)
      fun _ _ _ => trivial
  simpa [String.toList_intercalate, Function.comp_def] using hlist

/-- The characters of a face: a node has its marker in front, if it is distinct, and braces around
its operands. -/
theorem Face.toList_text (x : Face) : (x.text spell).toList =
    match x with
    | .string text => '!' :: (quote text).toList
    | .node distinct operands => (if distinct then "distinct ".toList else []) ++
        '!' :: '\x7b' :: ((", ".intercalate (operands.map (·.text spell))).toList ++ ['\x7d']) := by
  cases x with
  | string => simp [Face.text]
  | node distinct operands => cases distinct <;> simp [Face.text]

/-- Faces are told apart by their texts. -/
theorem Face.text_injective (hspell : TellsApart spell) : Function.Injective (Face.text spell) := by
  intro x y h
  have heq := congrArg String.toList h
  simp only [Face.toList_text] at heq
  cases x with
  | string text =>
    cases y with
    | string text' => rw [delimited_quote.injective trivial (List.cons.inj heq).2]
    | node distinct operands => cases distinct <;> simp [toList_quote] at heq
  | node distinct operands =>
    cases y with
    | string text => cases distinct <;> simp [toList_quote] at heq
    | node distinct' operands' =>
      -- one text would begin with a letter and the other with a mark
      have hsame : distinct = distinct' := by
        cases distinct <;> cases distinct' <;> simp at heq ⊢
      subst hsame
      have hlist := (List.cons.inj (List.cons.inj (List.append_cancel_left heq)).2).2
      rw [(delimited_operands hspell).injective trivial hlist]

/-! ## What is seen of it

All parts of the text are free of NUL, so it is seen as a whole. -/

/-- An operand has no NUL in its text, -/
theorem OperandFace.nulFree_text (hspell : TellsApart spell) (x : OperandFace) :
    NulFree (x.text spell) := by
  cases x with
  | empty => exact (by decide : NulFree "null")
  | string text => exact NulFree.append (by decide) (nulFree_quote text)
  | node d =>
    have hd : NulFree (spell d) := fun hmem => (hspell.chars d _ hmem).2 rfl
    exact (NulFree.append (by decide) hd).append (by decide)

/-- and neither has what it is in. -/
theorem Face.nulFree_text (hspell : TellsApart spell) (x : Face) : NulFree (x.text spell) := by
  cases x with
  | string text => exact NulFree.append (by decide) (nulFree_quote text)
  | node distinct operands =>
    have hfront : NulFree ((if distinct then "distinct " else "") ++ "!\x7b") := by
      cases distinct <;> decide
    refine (hfront.append (.intercalate (by decide) fun t ht => ?_)).append (by decide)
    obtain ⟨y, -, rfl⟩ := List.mem_map.1 ht
    exact y.nulFree_text hspell

namespace Surface

/-- **The text of a string or a node is unambiguous.**

Whatever has a face has a text, which is seen as a whole.  Two such texts are seen as the same exactly
if the faces are the same: both of strings with the same text, or both of nodes that agree on being
distinct and have the same number of operands, pairwise both empty, both strings with the same text,
or the same node.  No other node matters to the text, not even one that is an operand. -/
theorem metadata_text_determines_face {spell : Spelling} (hspell : TellsApart spell.metadata)
    {s s' : Store} {d d' : Ref .metadata} {x x' : Face} (hx : s.face? d = some x)
    (hx' : s'.face? d' = some x') :
    ∃ m m', (StoreQuery.metadataAsString (some d)).answer s spell = .ok (some m) ∧
      (StoreQuery.metadataAsString (some d')).answer s' spell = .ok (some m') ∧
      m.visible = m.bytes ∧ (m.visible = m'.visible ↔ x = x') ∧
      ∀ e f, d ≠ e →
        (StoreQuery.metadataAsString (some d)).answer (s.onNode e f) spell = .ok (some m) := by
  -- what callers are given is the text of the face
  have hanswer {s : Store} {d : Ref .metadata} {x : Face} (hx : s.face? d = some x) :
      s.metadataMessage spell.metadata (some d) = some (.ofString (x.text spell.metadata)) := by
    obtain ⟨m, hm, -⟩ := Option.bind_eq_some_iff.1 hx
    rw [Store.metadataMessage, Store.metadata?, Option.bind_some, hm, Option.map_some,
      Store.metadataText_of_face? hm hx]
  have hfree (x : Face) : NulFree (x.text spell.metadata) := x.nulFree_text hspell
  refine ⟨.ofString (x.text spell.metadata), .ofString (x'.text spell.metadata), ?_, ?_,
    Message.visible_eq_encode (hfree x), ⟨fun hvisible => ?_, ?_⟩, fun e f hde => ?_⟩
  · rw [StoreQuery.answer, hanswer hx]
  · rw [StoreQuery.answer, hanswer hx']
  · exact Face.text_injective hspell (Message.eq_of_visible_eq (hfree x) (hfree x') hvisible)
  · rintro rfl
    rfl
  · rw [StoreQuery.answer, Store.metadataMessage_onNode hde, hanswer hx]

/-- A node that has itself as an operand, and another one that has it; one string of the first reads
like the two strings of the second. -/
def punctuated : Store :=
  [.mdNode .distinct [some ⟨0⟩, some ⟨1⟩], .mdString "a\", !\"b", .mdString "a", .mdString "b",
    .mdNode .distinct [some ⟨0⟩, some ⟨2⟩, some ⟨3⟩]].foldl (·.edit ⟨0⟩) Host.opened.store

/-- Identities by their numbers. -/
def numbered : Spelling where
  value v := "v" ++ toString v.index
  metadata d := "md" ++ toString d.index
  dylib l := "dl" ++ toString l.index

/-- Letters and digits do tell numbers apart: the digits can be read back, and none of these
characters is a bracket. -/
theorem tellsApart_numbered : TellsApart numbered.metadata where
  injective d d' h := by
    have hlist : (toString d.index).toList = (toString d'.index).toList := by
      simpa [numbered] using congrArg String.toList h
    have hindex : d.index = d'.index := delimited_nat.injective (.nil _) hlist
    cases d
    cases d'
    exact congrArg Ref.mk hindex
  chars d c hc := by
    have hdigit : c = 'm' ∨ c = 'd' ∨ c.isDigit = true := by
      rw [numbered, String.toList_append, List.mem_append] at hc
      rcases hc with hc | hc
      · have hfront : c = 'm' ∨ c = 'd' := by simpa using hc
        exact hfront.imp_right .inl
      · exact .inr (.inr (isDigit_of_mem_toString hc))
    rcases hdigit with rfl | rfl | hdigit
    · decide
    · decide
    · constructor <;> rintro rfl <;> cases hdigit

/-- The quotes within the string are escaped, so the nodes are not seen as the same text. -/
theorem punctuated_told_apart : ∃ m m',
    (StoreQuery.metadataAsString (some ⟨0⟩)).answer punctuated numbered = .ok (some m) ∧
    (StoreQuery.metadataAsString (some ⟨4⟩)).answer punctuated numbered = .ok (some m') ∧
    m.visible = m.bytes ∧ m.visible ≠ m'.visible := by
  have hx : punctuated.face? ⟨0⟩ = some (.node true [.node ⟨0⟩, .string "a\", !\"b"]) := rfl
  have hx' : punctuated.face? ⟨4⟩ = some (.node true [.node ⟨0⟩, .string "a", .string "b"]) := rfl
  obtain ⟨m, m', hm, hm', hall, hiff, -⟩ := metadata_text_determines_face tellsApart_numbered hx hx'
  refine ⟨m, m', hm, hm', hall, fun hvisible => ?_⟩
  have hne : Face.node true [.node ⟨0⟩, .string "a\", !\"b"] ≠
      .node true [.node ⟨0⟩, .string "a", .string "b"] := by decide
  exact hne (hiff.1 hvisible)

end Surface

end ForeignHandles
