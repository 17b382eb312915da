import ForeignHandles.Proofs.Arena
import ForeignHandles.Proofs.Host.Run
import ForeignHandles.Proofs.Text.Utf8
import ForeignHandles.Store.Modules

/-!
  The names of modules, and what comes back of the bytes that go in.

  A module has a name and a source file name.  They are set and read in the same way, so both are one
  matter here (`ModuleText`): a setter puts the lenient reading of its bytes into the module, or does
  nothing (`setModuleText_eq`), and a getter lends what is there (`moduleText_eq`).

  After any calls a name is what the last call said that named this module and this name, and had bytes
  (`exists_after_run`).  What is read are the bytes of a text in any case, so only bytes that are no text
  come back as others.

  The text of an error that a caller makes takes the same way in.  It goes out as a buffer that ends with
  a NUL, and what is behind its own first NUL is not seen.
-/
namespace ForeignHandles

/-- The names of a module. -/
inductive ModuleText where
  | name
  | sourceFileName
  deriving DecidableEq

namespace ModuleText

variable {t t' : ModuleText} {x : Module} {text : String}

/-- The name as the module has it. -/
def of (x : Module) : ModuleText → String
  | .name => x.name
  | .sourceFileName => x.sourceFileName

/-- The module under another name. -/
def put (text : String) (x : Module) : ModuleText → Module
  | .name => { x with name := text }
  | .sourceFileName => { x with sourceFileName := text }

/-- Setting one name leaves the other, -/
theorem of_put : t.of (t'.put text x) = if t' = t then text else t.of x := by
  cases t <;> cases t' <;> rfl

/-- and setting a name to itself leaves both. -/
theorem put_of : t.put (t.of x) x = x := by
  cases t <;> rfl

end ModuleText

/-- An argument with what a getter handed out: the same bytes, or the null place with length zero. -/
def Input.handedBack : Option String → Input
  | none => .null 0
  | some text => .ofString text

/-- A text is lent as it is, but for the empty one. -/
theorem lendText_cases (text : String) :
    lendText text = none ∧ text = "" ∨ lendText text = some text := by
  unfold lendText
  split
  · exact .inl ⟨rfl, String.isEmpty_iff.1 ‹_›⟩
  · exact .inr rfl

/-- What is lent of a text has its bytes, also if the text is empty. -/
theorem Input.bytes?_handedBack (text : String) :
    (handedBack (lendText text)).bytes? = some (Utf8.encode text) := by
  rcases lendText_cases text with ⟨hlent, rfl⟩ | hlent
  · rw [hlent]
    rfl
  · rw [hlent]
    rfl

/-- A call that sets a name of a module. -/
structure NameCall where
  text : ModuleText
  module : Handle .module
  input : Input

/-- The bytes that a call sets this name of this module to, if it does. -/
def NameCall.bytesFor (m : Ref .module) (t : ModuleText) (call : NameCall) : Option (List UInt8) :=
  if call.module = some m ∧ call.text = t then call.input.bytes? else none

/-- The bytes that the last such call sets it to. -/
def lastSaid (m : Ref .module) (t : ModuleText) (calls : List NameCall) : Option (List UInt8) :=
  (calls.filterMap (NameCall.bytesFor m t)).getLast?

namespace Store

/-- What the getter of a name hands out. -/
def moduleText (s : Store) (h : Handle .module) : ModuleText → Option String
  | .name => s.moduleName h
  | .sourceFileName => s.moduleSource h

/-- The setter of a name. -/
def setModuleText (s : Store) (h : Handle .module) (input : Input) : ModuleText → Store
  | .name => s.setModuleName h input
  | .sourceFileName => s.setModuleSource h input

/-- The bytes that are read through a getter; there are none at the null place. -/
def readText (s : Store) (h : Handle .module) (t : ModuleText) : List UInt8 :=
  ((s.moduleText h t).map Utf8.encode).getD []

/-- The store after a number of calls. -/
def runNames (s : Store) (calls : List NameCall) : Store :=
  calls.foldl (fun s call => s.setModuleText call.module call.input call.text) s

/-- What is read is the lenient reading of the bytes, so the bytes themselves if they are UTF-8. -/
def ReadsLossy (s : Store) (m : Ref .module) (t : ModuleText) (bytes : List UInt8) : Prop :=
  s.readText (some m) t = Utf8.encode (Utf8.lossy bytes) ∧
    (s.readText (some m) t = bytes ↔ Utf8.Valid bytes)

section

variable {s : Store} {h : Handle .module} {m : Ref .module} {x : Module} {t : ModuleText}
  {input : Input}

/-! ## The getters and the setters

A text is lent by its place and its length, and the empty text has no place. So a getter may hand
out the null place; read or handed back with length zero, that is the empty text again. -/

/-- Both getters lend the name of a module that is there. -/
theorem moduleText_eq : s.moduleText h t = (s.module? h).bind (fun x => lendText (t.of x)) := by
  cases t <;> rfl

/-- Both setters put the lenient reading of the bytes, if there is a module and there are bytes. -/
theorem setModuleText_eq : s.setModuleText h input t =
    match h, input.bytes? with
    | some m, some bytes =>
      { s with modules := s.modules.modify m (fun x => t.put (Utf8.lossy bytes) x) }
    | _, _ => s := by
  cases t <;> rfl

/-- Without bytes a setter does nothing. -/
theorem setModuleText_of_none (hinput : input.bytes? = none) : s.setModuleText h input t = s := by
  rw [setModuleText_eq, hinput]
  cases h <;> rfl

/-- With bytes a setter writes, -/
theorem setModuleText_of_some {bytes : List UInt8} (hinput : input.bytes? = some bytes) :
    s.setModuleText (some m) input t =
      { s with modules := s.modules.modify m (fun x => t.put (Utf8.lossy bytes) x) } := by
  rw [setModuleText_eq, hinput]

/-- and what is read of a module that is there are the bytes of its name. -/
theorem readText_eq (hx : s.modules.get? m = some x) :
    s.readText (some m) t = Utf8.encode (t.of x) := by
  have hmodule : s.module? (some m) = some x := hx
  rw [readText, moduleText_eq, hmodule, Option.bind_some]
  rcases lendText_cases (t.of x) with ⟨hlent, hempty⟩ | hlent
  · rw [hlent, hempty]
    rfl
  · rw [hlent]
    rfl

/-- What is read is UTF-8, for it is the encoding of a text, or nothing. -/
theorem valid_readText (s : Store) (h : Handle .module) (t : ModuleText) :
    Utf8.Valid (s.readText h t) := by
  rw [readText]
  cases s.moduleText h t with
  | none => exact Utf8.valid_encode ""
  | some text => exact Utf8.valid_encode text

/-- To set a name to what its getter lends is to leave it. -/
theorem setModuleText_handedBack (s : Store) (h : Handle .module) (t : ModuleText) :
    s.setModuleText h (.handedBack (s.moduleText h t)) t = s := by
  cases h with
  | none => rw [setModuleText_eq]
  | some m =>
    cases hx : s.modules.get? m with
    | none =>
      have hmodule : s.module? (some m) = none := hx
      rw [moduleText_eq, hmodule, Option.bind_none, setModuleText_of_some rfl,
        Arena.modify_of_none hx]
    | some x =>
      have hmodule : s.module? (some m) = some x := hx
      -- the bytes of a text are read as that text
      have hput : t.put (Utf8.lossy (Utf8.encode (t.of x))) x = x := by
        rw [Utf8.lossy_encode, ModuleText.put_of]
      rw [moduleText_eq, hmodule, Option.bind_some,
        setModuleText_of_some (Input.bytes?_handedBack _), Arena.modify_of_get? hx hput]

/-! ## Calls

Only the last call that names this module and this name, and comes with bytes, matters; `lastSaid`
finds it in the list. -/

/-- A call sets the name that it says, and no other. -/
theorem exists_after_call (hx : s.modules.get? m = some x) (call : NameCall) :
    ∃ y, (s.setModuleText call.module call.input call.text).modules.get? m = some y ∧
      ∀ t : ModuleText, t.of y = ((call.bytesFor m t).map Utf8.lossy).getD (t.of x) := by
  -- a call that is not about this module leaves its names
  have hkept (hnone : ∀ t, call.bytesFor m t = none) (t : ModuleText) :
      t.of x = ((call.bytesFor m t).map Utf8.lossy).getD (t.of x) := by
    rw [hnone]
    rfl
  cases hbytes : call.input.bytes? with
  | none =>
    rw [setModuleText_of_none hbytes]
    exact ⟨x, hx, hkept fun t => by rw [NameCall.bytesFor, hbytes, ite_self]⟩
  | some bytes =>
    cases hmodule : call.module with
    | none =>
      rw [setModuleText_eq]
      refine ⟨x, hx, hkept fun t => if_neg ?_⟩
      rintro ⟨hsame, -⟩
      cases hmodule.symm.trans hsame
    | some m' =>
      rw [setModuleText_of_some hbytes]
      refine ⟨_, Arena.get?_modify_eq_some_iff.2 ⟨x, hx, rfl⟩, fun t => ?_⟩
      simp only [NameCall.bytesFor, hmodule, hbytes, Option.some.injEq]
      by_cases hm : m' = m
      · rw [if_pos hm, ModuleText.of_put]
        by_cases ht : call.text = t
        · rw [if_pos ht, if_pos ⟨hm, ht⟩]
          rfl
        · rw [if_neg ht, if_neg fun hboth => ht hboth.2]
          rfl
      · rw [if_neg hm, if_neg fun hboth => hm hboth.1]
        rfl

/-- A name is what was said last. -/
theorem exists_after_run (hx : s.modules.get? m = some x) (calls : List NameCall) :
    ∃ y, (s.runNames calls).modules.get? m = some y ∧
      ∀ t : ModuleText, t.of y = ((lastSaid m t calls).map Utf8.lossy).getD (t.of x) := by
  induction calls generalizing s x with
  | nil => exact ⟨x, hx, fun _ => rfl⟩
  | cons call calls ih =>
    obtain ⟨y, hy, hcall⟩ := exists_after_call hx call
    obtain ⟨z, hz, hrun⟩ := ih hy
    refine ⟨z, hz, fun t => ?_⟩
    rw [hrun t, hcall t, lastSaid, lastSaid, List.filterMap_cons]
    cases call.bytesFor m t with
    | none => rfl
    | some bytes =>
      rw [List.getLast?_cons]
      cases (calls.filterMap (NameCall.bytesFor m t)).getLast? <;> rfl

/-- What is read are the bytes that were said last, as far as they can be read back. -/
theorem readsLossy_after_run (hx : s.modules.get? m = some x) {first : List UInt8}
    (hfirst : t.of x = Utf8.lossy first) (calls : List NameCall) :
    (s.runNames calls).ReadsLossy m t ((lastSaid m t calls).getD first) := by
  obtain ⟨y, hy, hrun⟩ := exists_after_run hx calls
  have hread : (s.runNames calls).readText (some m) t =
      Utf8.encode (Utf8.lossy ((lastSaid m t calls).getD first)) := by
    rw [readText_eq hy, hrun t, hfirst]
    cases lastSaid m t calls <;> rfl
  refine ⟨hread, ?_⟩
  rw [hread]
  exact Utf8.encode_lossy_iff

/-- A module that is created with a name has it as its source file name, too. -/
theorem createModuleNamed_of_some (c : Ref .context) {bytes : List UInt8}
    (hinput : input.bytes? = some bytes) :
    ∃ m s', s.createModuleNamed (some c) input = (some m, s') ∧
      ∃ x, s'.modules.get? m = some x ∧ ∀ t : ModuleText, t.of x = Utf8.lossy bytes := by
  refine ⟨(s.createModule c (Utf8.lossy bytes)).1, (s.createModule c (Utf8.lossy bytes)).2, ?_, _,
    Arena.get?_alloc_eq_some_iff.2 (.inl ⟨rfl, rfl⟩), fun t => ?_⟩
  · simp only [createModuleNamed, hinput]
  · cases t <;> rfl

end

end Store

/-! ## Errors

An error has a text of its own, and callers may bring one. It is read leniently too, and what
callers see of it ends at a NUL. -/

/-- Bytes are seen as a whole, after lenient reading, if they are UTF-8 without a NUL. -/
theorem Message.visible_lossy_eq_iff {bytes : List UInt8} :
    (ofString (Utf8.lossy bytes)).visible = bytes ↔ Utf8.Valid bytes ∧ 0 ∉ bytes := by
  constructor
  · intro h
    refine ⟨?_, fun hzero => ?_⟩
    · rw [← h, visible_ofString]
      exact Utf8.valid_encode _
    · rw [← h, visible] at hzero
      simpa using List.mem_takeWhile_imp hzero
  · rintro ⟨hvalid, hzero⟩
    have hbytes : (ofString (Utf8.lossy bytes)).bytes = bytes :=
      Utf8.encode_lossy_iff.2 hvalid
    rw [visible, hbytes]
    refine List.takeWhile_eq_self_iff.2 fun b hb => decide_eq_true ?_
    rintro rfl
    exact hzero hb

/-- **Text is changed only where it has to be.**

What is read of a module's name or source file name is UTF-8, whatever the handle.  Of a live module it
is the lenient reading of the bytes that were last set, by a call on this module and this name that was
not declined, whatever calls came before it, after it and between; if there was none, of the bytes that
were read at first, or that the module was created with.  Lenient reading gives the bytes themselves if
they are UTF-8, and only then.

A null place with a length sets nothing.  What a getter lends may be set again, the null place of an
empty text too, and the store is the same.

The bytes of an error come back as a whole if they are UTF-8 without a NUL, and only then.  In any case
their lenient reading comes back up to its first NUL. -/
theorem text_is_lossy_only_where_needed :
    (∀ (s : Store) h t, Utf8.Valid (s.readText h t)) ∧
    (∀ (s : Store) m x, s.modules.get? m = some x → ∀ calls t,
      (s.runNames calls).ReadsLossy m t ((lastSaid m t calls).getD (s.readText (some m) t))) ∧
    (∀ (s : Store) c input first, input.bytes? = some first →
      ∃ m s', s.createModuleNamed (some c) input = (some m, s') ∧ ∀ calls t,
        (s'.runNames calls).ReadsLossy m t ((lastSaid m t calls).getD first)) ∧
    (∀ (s : Store) h length t, s.setModuleText h (.null (length + 1)) t = s) ∧
    (∀ (s : Store) h t, s.setModuleText h (.handedBack (s.moduleText h t)) t = s) ∧
    ∀ written input bytes, input.bytes? = some bytes →
      let seen := (Message.ofString ((BoundaryError.ofInput input).message written)).visible
      (seen = bytes ↔ Utf8.Valid bytes ∧ 0 ∉ bytes) ∧
        seen = Utf8.encode (String.ofList ((Utf8.lossy bytes).toList.takeWhile isVisible)) := by
  refine ⟨Store.valid_readText, fun s m x hx calls t => ?_, fun s c input first hinput => ?_,
    fun s h length t => Store.setModuleText_of_none rfl, Store.setModuleText_handedBack, ?_⟩
  · refine Store.readsLossy_after_run hx ?_ calls
    rw [Store.readText_eq hx, Utf8.lossy_encode]
  · obtain ⟨m, s', hcreate, x, hx, hfirst⟩ := Store.createModuleNamed_of_some (s := s) c hinput
    exact ⟨m, s', hcreate, fun calls t => Store.readsLossy_after_run hx (hfirst t) calls⟩
  · intro written input bytes hinput
    have herror : (BoundaryError.ofInput input).message written = Utf8.lossy bytes := by
      rw [BoundaryError.ofInput, hinput]
      rfl
    rw [herror]
    exact ⟨Message.visible_lossy_eq_iff, Message.visible_ofString _⟩

/-- A module whose name comes in with a byte that is no UTF-8 has the replacement character there, until
a name comes in that is UTF-8; the one that is nowhere and the new source file name do not matter. -/
theorem ill_formed_name_replaced :
    (Input.bytes [0x61, 0xFF]).bytes? = some [0x61, 0xFF] ∧
    ∃ m s', Host.opened.store.createModuleNamed (some Host.soleContext) (.bytes [0x61, 0xFF]) =
        (some m, s') ∧
      s'.readText (some m) .name = [0x61, 0xEF, 0xBF, 0xBD] ∧
      (s'.runNames [⟨.name, some m, .bytes [0x62]⟩, ⟨.name, some m, .null 1⟩,
        ⟨.sourceFileName, some m, .null 0⟩]).readText (some m) .name = [0x62] := by
  have hinput : (Input.bytes [0x61, 0xFF]).bytes? = some [0x61, 0xFF] := rfl
  obtain ⟨-, -, hcreated, -⟩ := text_is_lossy_only_where_needed
  obtain ⟨m, s', hcreate, hread⟩ := hcreated Host.opened.store Host.soleContext _ _ hinput
  refine ⟨hinput, m, s', hcreate, (hread [] .name).1.trans ?_, (hread _ .name).1.trans ?_⟩
  · have hnone : lastSaid m .name [] = none := rfl
    rw [hnone, Utf8.lossy, Utf8.encode_ofList]
    decide
  · have hlast : lastSaid m .name [⟨.name, some m, .bytes [0x62]⟩, ⟨.name, some m, .null 1⟩,
        ⟨.sourceFileName, some m, .null 0⟩] = some [0x62] := by
      simp [lastSaid, NameCall.bytesFor, Input.bytes?]
    rw [hlast, Utf8.lossy, Utf8.encode_ofList]
    decide

end ForeignHandles
