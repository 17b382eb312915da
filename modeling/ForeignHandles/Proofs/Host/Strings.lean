import ForeignHandles.Proofs.Host.Step
import ForeignHandles.Proofs.Store.MetadataEdit

/-!
  Strings of metadata over every run of a host.

  Asking for a string looks through all metadata for the text, and nodes and wrappers in between
  change under way.  What does not change is which texts are there: no string is made but on demand
  (`textOf?_edit`), and none is changed or taken away.

  So the strings of the context are, in every state of a run, those that were asked for up to then
  (`Interned`).  What the next call for a string returns, and whether it makes one, follows from that
  (`strings_are_interned`).
-/
namespace ForeignHandles

namespace Metadata

/-- The text of a string that belongs to a context. -/
def textIn? (c : Ref .context) (m : Metadata) : Option String :=
  if m.context = c then m.string? else none

/-- It is a string of the context. -/
theorem textIn?_eq_some_iff {c : Ref .context} {m : Metadata} {text : String} :
    m.textIn? c = some text ↔ m.context = c ∧ m.string? = some text := by
  unfold textIn?
  split <;> simp_all

/-- A node that changes was no string, -/
theorem textIn?_mapNode (c : Ref .context) (f : Node → Node) (m : Metadata) :
    (m.mapNode f).textIn? c = m.textIn? c := by
  rw [textIn?, textIn?, Store.context_mapNode, string?_mapNode]

/-- and neither was a wrapper that is redirected. -/
theorem textIn?_redirect (c : Ref .context) (old : Ref .value) (new : Handle .value)
    (m : Metadata) : (m.redirect old new).textIn? c = m.textIn? c := by
  rw [textIn?, textIn?, context_redirect, string?_redirect]

end Metadata

/-! ## Strings of a store

The search compares the context and the text of an object. `textIn?` is the two comparisons in
one, so the search is for an object with a given `textIn?`, and all that operations do to metadata
can be said by what they do to that. -/

namespace Store

variable {s : Store} {c : Ref .context} {d : Ref .metadata} {e : Edit} {text : String}

/-- The text of the string of a context that is named. -/
def textOf? (s : Store) (c : Ref .context) (d : Ref .metadata) : Option String :=
  (s.metadata.get? d).bind (·.textIn? c)

/-- The text in the form in which operations keep it. -/
theorem textOf?_eq_join (s : Store) (c : Ref .context) (d : Ref .metadata) :
    s.textOf? c d = ((s.metadata.get? d).map (·.textIn? c)).join := by
  rw [textOf?]
  cases s.metadata.get? d <;> rfl

/-- A string of a context is a string. -/
theorem string?_of_textOf? (h : s.textOf? c d = some text) :
    (s.metadata? (some d)).bind (·.string?) = some text := by
  obtain ⟨m, hm, htext⟩ := Option.bind_eq_some_iff.1 h
  rw [metadata?, Option.bind_some, hm, Option.bind_some]
  exact (Metadata.textIn?_eq_some_iff.1 htext).2

/-- A string with the text is there and is returned, or none is there and one is made. -/
theorem mdString_cases (s : Store) (c : Ref .context) (text : String) :
    (∃ d, s.textOf? c d = some text ∧ s.mdString c text = (d, s)) ∨
      (∀ d, s.textOf? c d ≠ some text) ∧ s.mdString c text = s.addMetadata c (.string text) := by
  -- the search goes by context and text
  have hiff (m : Metadata) :
      (m.context = c && m.string? == some text) = true ↔ m.textIn? c = some text := by
    rw [Metadata.textIn?_eq_some_iff]
    simp
  cases hfind : s.metadata.find? (fun m => m.context = c && m.string? == some text) with
  | some d =>
    obtain ⟨m, hm, hp⟩ := Arena.get?_of_find? hfind
    refine .inl ⟨d, ?_, by simp only [mdString, hfind]⟩
    rw [textOf?, hm]
    exact (hiff m).1 hp
  | none =>
    refine .inr ⟨fun d hd => ?_, by simp only [mdString, hfind]⟩
    obtain ⟨m, hm, htext⟩ := Option.bind_eq_some_iff.1 hd
    have hnot := Arena.eq_false_of_find?_eq_none hfind hm
    rw [(hiff m).2 htext] at hnot
    cases hnot

/-- What is about to be made has no text yet. -/
theorem textOf?_new (s : Store) (c c' : Ref .context) (body : MetadataBody) :
    s.textOf? c' (s.addMetadata c body).1 = none := by
  have hnone : s.metadata.get? (s.addMetadata c body).1 = none :=
    s.metadata.get?_alloc_fst { context := c, body }
  rw [textOf?, hnone, Option.bind_none]

/-- A string that is added has its text, and the others have theirs. -/
theorem textOf?_addString (s : Store) (c : Ref .context) (text : String) (d : Ref .metadata) :
    (s.addMetadata c (.string text)).2.textOf? c d =
      if d = (s.addMetadata c (.string text)).1 then some text else s.textOf? c d := by
  have hget : (s.addMetadata c (.string text)).2.metadata.get? d =
      if d = (s.addMetadata c (.string text)).1 then some { context := c, body := .string text }
      else s.metadata.get? d := Arena.get?_alloc ..
  rw [textOf?, hget]
  split
  · exact Metadata.textIn?_eq_some_iff.2 ⟨rfl, rfl⟩
  · rfl

/-- Besides asking for strings, no edit makes or changes one. -/
theorem textOf?_edit (he : ∀ text, e ≠ .mdString text) (c c' : Ref .context) (d : Ref .metadata) :
    (s.edit c e).textOf? c' d = s.textOf? c' d := by
  cases hd : s.metadata.get? d with
  | some m =>
    rw [textOf?, textOf?, get?_metadata_edit hd, hd]
    exact m.textIn?_mapNode c' _
  | none =>
    have hnone : s.textOf? c' d = none := by rw [textOf?, hd, Option.bind_none]
    rw [hnone]
    rcases s.metadata_edit_cases c e with ⟨x, f, -, heq⟩ | ⟨-, hsame | ⟨m, hstring, -, hmade⟩⟩
    · rw [textOf?, heq, get?_onNode, hd, Option.map_none, Option.bind_none]
    · rw [textOf?, hsame, hd, Option.bind_none]
    · rw [textOf?, hmade, Arena.get?_alloc, hd]
      split
      · refine Option.eq_none_iff_forall_ne_some.2 fun text htext => he text ?_
        exact hstring text (Metadata.textIn?_eq_some_iff.1 htext).2
      · rfl

end Store

namespace Host

variable {h : Host} {asked : List (String × Ref .metadata)} {a : Action}

/-! ## Runs

`stringsAsked` collects the calls of a run with their results. The invariant is an equivalence:
whatever was asked for is there, and whatever is there was asked for. The second half is what
makes the next call predictable. -/

/-- The text that an action asks for, and the string that is returned. -/
def stringsAsked (h : Host) : Action → List (String × Ref .metadata)
  | .edit (.mdString text) => [(text, (h.store.mdString soleContext text).1)]
  | _ => []

/-- The strings that were asked for are those that there are, and no text has two. -/
structure Interned (asked : List (String × Ref .metadata)) (s : Store) : Prop where
  mem_iff : ∀ {text d}, (text, d) ∈ asked ↔ s.textOf? soleContext d = some text
  once : ∀ {text d d'}, (text, d) ∈ asked → (text, d') ∈ asked → d = d'

/-- Nothing has been asked for, and nothing is there. -/
theorem interned_opened : Interned [] opened.store where
  mem_iff := by simp [Store.textOf?, opened, Store.createContext, Arena.get?]
  once := nofun

/-- Besides asking for strings, no action makes or changes one. -/
theorem textOf?_act (hs : h.Sole) (ha : ∀ text, a ≠ .edit (.mdString text)) (d : Ref .metadata) :
    (h.act a).store.textOf? soleContext d = h.store.textOf? soleContext d := by
  obtain ⟨e, rfl⟩ | hne := a.eq_edit_or_ne
  · exact Store.textOf?_edit (fun text he => ha text (he ▸ rfl)) soleContext soleContext d
  · rw [Store.textOf?_eq_join, Store.textOf?_eq_join,
      metadata_act (Metadata.textIn?_redirect soleContext) hs hne d]

/-- Other actions ask for no string. -/
theorem stringsAsked_of_ne (ha : ∀ text, a ≠ .edit (.mdString text)) : stringsAsked h a = [] := by
  unfold stringsAsked
  split
  · exact absurd rfl (ha _)
  · rfl

namespace Interned

/-- The call returns the string that was returned before, or the text is new. In the first case
the new entry repeats an old one; in the second its reference is new as well. -/
theorem mdString {s : Store} (hi : Interned asked s) (text : String) :
    Interned (asked ++ [(text, (s.mdString soleContext text).1)]) (s.mdString soleContext text).2 := by
  rcases s.mdString_cases soleContext text with ⟨d, hd, heq⟩ | ⟨hnew, heq⟩
  · -- nothing new is on the list
    rw [heq]
    have hlisted : ∀ p ∈ asked ++ [(text, d)], p ∈ asked := by
      intro p hp
      rcases List.mem_append.1 hp with hp | hp
      · exact hp
      · rw [List.mem_singleton.1 hp]
        exact hi.mem_iff.2 hd
    exact
      { mem_iff := ⟨fun hp => hi.mem_iff.1 (hlisted _ hp),
          fun htext => List.mem_append_left _ (hi.mem_iff.2 htext)⟩
        once := fun hp hq => hi.once (hlisted _ hp) (hlisted _ hq) }
  · rw [heq]
    -- the reference is new, so it was not returned before
    have hfresh (text' : String) : (text', (s.addMetadata soleContext (.string text)).1) ∉ asked := by
      intro hp
      have htext := hi.mem_iff.1 hp
      rw [Store.textOf?_new] at htext
      cases htext
    have hunasked (d : Ref .metadata) : (text, d) ∉ asked := fun hp => hnew d (hi.mem_iff.1 hp)
    exact
      { mem_iff := by
          intro text' d
          rw [List.mem_append, List.mem_singleton, Prod.mk.injEq, Store.textOf?_addString]
          split
          · rename_i hd
            subst hd
            simp [hfresh, eq_comm]
          · rename_i hd
            simp [hd, hi.mem_iff]
        once := by
          intro text' d d' hp hq
          rw [List.mem_append, List.mem_singleton, Prod.mk.injEq] at hp hq
          rcases hp with hp | ⟨rfl, rfl⟩ <;> rcases hq with hq | ⟨hq, rfl⟩
          · exact hi.once hp hq
          · exact absurd (hq ▸ hp) (hunasked d)
          · exact absurd hq (hunasked d')
          · rfl }

/-- Every action keeps the list right: it is a call for a string, or it has nothing to do with
strings. -/
theorem act (hs : h.Sole) (hi : Interned asked h.store) (a : Action) :
    Interned (asked ++ stringsAsked h a) (h.act a).store := by
  by_cases ha : ∃ text, a = .edit (.mdString text)
  · obtain ⟨text, rfl⟩ := ha
    exact hi.mdString text
  · have hne (text : String) : a ≠ .edit (.mdString text) := fun heq => ha ⟨text, heq⟩
    rw [stringsAsked_of_ne hne, List.append_nil]
    exact
      { mem_iff := by
          intro text d
          rw [textOf?_act hs hne]
          exact hi.mem_iff
        once := hi.once }

end Interned

/-- So the list is right after every run. -/
theorem interned_run (actions : List Action) :
    Interned (opened.gather stringsAsked actions) (opened.run actions).store := by
  have hany : Along (fun _ _ => True) opened actions :=
    along_of_forall (fun _ _ => trivial) opened actions
  exact gather_invariant (P := fun h asked => Interned asked h.store)
    (fun h asked a hs _ hi => hi.act hs a) sole_opened hany interned_opened

/-- A call adds a string exactly if the text was not asked for before. -/
theorem length_metadataOf_mdString {s : Store} (hi : Interned asked s) (text : String) :
    ((s.mdString soleContext text).2.metadataOf soleContext).length =
      (s.metadataOf soleContext).length + if text ∈ asked.map Prod.fst then 0 else 1 := by
  have hasked : text ∈ asked.map Prod.fst ↔ ∃ d, s.textOf? soleContext d = some text := by
    simp [hi.mem_iff]
  rcases s.mdString_cases soleContext text with ⟨d, hd, heq⟩ | ⟨hnew, heq⟩
  · rw [heq, if_pos (hasked.2 ⟨d, hd⟩), Nat.add_zero]
  · have hmetadata : (s.addMetadata soleContext (.string text)).2.metadata =
        (s.metadata.alloc { context := soleContext, body := .string text }).2 := rfl
    rw [heq, if_neg fun hold => not_exists.2 hnew (hasked.1 hold), Store.metadataOf, hmetadata,
      Arena.select_alloc, if_pos (decide_eq_true rfl), List.length_append]
    rfl

/-- **Strings of metadata are interned** for as long as the context lives, whatever happens in
between.

Two calls have returned the same string exactly if they asked for the same text.  Each string that was
returned still has its text, and callers are lent that text.  The next call adds one object to the
metadata of the context if nobody has asked for its text before, and otherwise none. -/
theorem strings_are_interned (actions : List Action) :
    let asked := opened.gather stringsAsked actions
    let s := (opened.run actions).store
    (∀ text d text' d', (text, d) ∈ asked → (text', d') ∈ asked → (d = d' ↔ text = text')) ∧
    (∀ text d, (text, d) ∈ asked → (s.metadata? (some d)).bind (·.string?) = some text ∧
      s.stringText (some d) = lendText32 text) ∧
    ∀ text, ((s.mdString soleContext text).2.metadataOf soleContext).length =
      (s.metadataOf soleContext).length + if text ∈ asked.map Prod.fst then 0 else 1 := by
  intro asked s
  have hi : Interned asked s := interned_run actions
  refine ⟨fun text d text' d' hp hq => ⟨?_, ?_⟩, fun text d hp => ?_, length_metadataOf_mdString hi⟩
  · rintro rfl
    exact Option.some.inj ((hi.mem_iff.1 hp).symm.trans (hi.mem_iff.1 hq))
  · rintro rfl
    exact hi.once hp hq
  · have htext := Store.string?_of_textOf? (hi.mem_iff.1 hp)
    exact ⟨htext, by rw [Store.stringText, htext, Option.bind_some]⟩

/-- A text is asked for twice, and in between the table gets a wrapper that is redirected, a node and
a string that is longer. -/
def askedAgain : List Action :=
  [.edit (.mdString "a"), .edit (.createInstruction "v"), .edit (.createInstruction "w"),
    .edit (.valueAsMetadata ⟨0⟩), .edit (.mdNode .distinct [some ⟨0⟩, some ⟨1⟩]),
    .edit (.mdString "aa"), .replaceAllUses ⟨0⟩ ⟨1⟩, .delete ⟨0⟩, .edit (.mdString "a")]

/-- Both calls return the first object, which still reads the text, and a third call makes none. -/
theorem askedAgain_interned :
    opened.gather stringsAsked askedAgain = [("a", ⟨0⟩), ("aa", ⟨3⟩), ("a", ⟨0⟩)] ∧
      ((opened.run askedAgain).store.metadata? (some ⟨0⟩)).bind (·.string?) = some "a" ∧
      (((opened.run askedAgain).store.mdString soleContext "a").2.metadataOf soleContext).length =
        ((opened.run askedAgain).store.metadataOf soleContext).length := by
  have hasked : opened.gather stringsAsked askedAgain = [("a", ⟨0⟩), ("aa", ⟨3⟩), ("a", ⟨0⟩)] := rfl
  obtain ⟨-, hread, hcount⟩ := strings_are_interned askedAgain
  rw [hasked] at hread hcount
  exact ⟨hasked, (hread "a" ⟨0⟩ List.mem_cons_self).1, hcount "a"⟩

end Host

end ForeignHandles
