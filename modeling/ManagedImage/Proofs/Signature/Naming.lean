/-
Naming types with one counter.

Types name tokens, and a token of a type specification is named by spelling out
the type that it stands for, which may name the same token again. What stops this
is a count of the specifications that are being spelled out, kept by the namer for
all that is asked of it.

A type is a finite tree, so only a name within a name can go on for ever. `name`
follows as many names, one within the other, as it is told to, and is `none` if
there are more. A rendering ends if it is there from some number on.

The counter is put back on every way out, so a rendering leaves it as it found it
(`Leaves`). With that the depth that is left can only fall on the way in, the
recursion ends, and what it gives depends on that depth alone: it is the text of
`Image.nameWithin`, which counts levels down instead (`leaves_name`).
-/
import ManagedImage.Signature.Lookup
import ManagedImage.Proofs.Results

set_option autoImplicit false

namespace ManagedImage.Namer

open TypeSig (classWord dimensionsText paramTexts)

/-! ## Naming -/

mutual

/-- The type spelled out with the names of its tokens. -/
def spell (name : Token → StateT Int Option Text) : TypeSig → StateT Int Option Text
  | .prim p => return p.name
  | .named tok isValue => return classWord isValue ++ (← name tok)
  | .inst tok isValue args => do
    let text ← name tok
    let args ← spellAll name args
    return classWord isValue ++ text ++ "<" ++ Text.join "," args ++ (">" : Text)
  | .array elem rank sizes lower =>
    return (← spell name elem) ++ (dimensionsText rank sizes lower : Text)
  | .szArray elem => return (← spell name elem) ++ ("[]" : Text)
  | .pointer elem => return (← spell name elem) ++ ("*" : Text)
  | .byRef elem => return (← spell name elem) ++ ("&" : Text)
  | .pinned elem => return (← spell name elem) ++ (" pinned" : Text)
  | .modified required tok elem => do
    let text ← spell name elem
    let modifier ← name tok
    let word : Text := if required then " modreq(" else " modopt("
    return text ++ word ++ modifier ++ (")" : Text)
  | .typeVar i => return (s!"!{i}" : Text)
  | .methodVar i => return (s!"!!{i}" : Text)
  | .fnPtr head ret params sentinel complete _ => do
    let ret ← spell name ret
    let params ← spellAll name params
    return "method " ++ head.render ret "*" (paramTexts params sentinel complete)

/-- The types spelled out one by one. -/
def spellAll (name : Token → StateT Int Option Text) :
    List TypeSig → StateT Int Option (List Text)
  | [] => return []
  | t :: rest => do
    let text ← spell name t
    let texts ← spellAll name rest
    return text :: texts

end

/-- The name of a token, if it takes no more than `nest` names, one within the other. The state is
the number of type specifications that are being spelled out. -/
def name (img : Image) : (nest : Nat) → Token → StateT Int Option Text
  | 0, _ => fun _ => none
  | nest + 1, tok => do
    match tok.table? with
    | some .typeDef | some .typeRef => match img.typeName tok with
      | .ok text => return text
      | .error _ => return tok.render
    | some .typeSpec =>
      let depth ← get
      if (Decode.maxLevels : Int) ≤ depth then return tok.render
      else match img.typeSpec tok with
        | .error _ => return tok.render
        | .ok t =>
          modify (· + 1)
          let text ← spell (name img nest) t
          modify (· - 1)
          return text
    | _ => return tok.render

/-- What a namer can be asked for. -/
inductive Request where
  /-- The name of a token. -/
  | token (tok : Token)
  /-- A type spelled out. -/
  | type (t : TypeSig)
  /-- A method signature spelled out, a label before its parameters. -/
  | method (m : MethodSig) (label : Text)

/-- The answer of a namer, if it takes no more than `nest` names, one within the other. -/
def answer (img : Image) (nest : Nat) : Request → StateT Int Option Text
  | .token tok => name img nest tok
  | .type t => spell (name img nest) t
  | .method m label => do
    let l := m.params
    let ret ← spell (name img nest) m.ret
    let params ← spellAll (name img nest) l.types
    return m.head.render ret label (paramTexts params l.sentinel l.fault.isNone)

/-- The text that is asked for, without a counter. -/
def Request.text (img : Image) : Request → Text
  | .token tok => img.nameOf tok
  | .type t => img.typeText t
  | .method m label => m.render img.nameOf label

/-! ## Leaving the counter -/

section Leaves

variable {α β : Type} {depth : Int} {x : StateT Int Option α} {a : α}

/-- The rendering ends and leaves the counter at `depth`, where it found it. -/
def Leaves (x : StateT Int Option α) (depth : Int) (a : α) : Prop := x depth = some (a, depth)

theorem leaves_pure (a : α) (depth : Int) : Leaves (pure a) depth a := rfl

theorem bind_apply {f : α → StateT Int Option β} {s t : Int} (h : x s = some (a, t)) :
    (x >>= f) s = f a t := by
  show Option.bind (x s) (fun r => f r.1 r.2) = f a t
  rw [h]
  rfl

theorem Leaves.bind {f : α → StateT Int Option β} {b : β} (hx : Leaves x depth a)
    (hf : Leaves (f a) depth b) : Leaves (x >>= f) depth b := by
  rw [Leaves, bind_apply hx]
  exact hf

theorem Leaves.map {f : α → β} (hx : Leaves x depth a) :
    Leaves (do return f (← x)) depth (f a) := hx.bind (leaves_pure _ _)

end Leaves

section Spelling

variable {name : Token → StateT Int Option Text} {depth : Int} {f : Token → Text}

mutual

/-- A type is spelled as the names are, if naming leaves the counter. -/
theorem leaves_spell (hname : ∀ tok, Leaves (name tok) depth (f tok)) :
    ∀ t : TypeSig, Leaves (spell name t) depth (t.render f)
  | .prim p => by
    rw [spell, TypeSig.render]
    exact leaves_pure _ _
  | .named tok isValue => by
    rw [spell, TypeSig.render]
    exact (hname tok).map
  | .inst tok isValue args => by
    rw [spell, TypeSig.render]
    exact (hname tok).bind (leaves_spellAll hname args).map
  | .array elem rank sizes lower => by
    rw [spell, TypeSig.render]
    exact (leaves_spell hname elem).map
  | .szArray elem => by
    rw [spell, TypeSig.render]
    exact (leaves_spell hname elem).map
  | .pointer elem => by
    rw [spell, TypeSig.render]
    exact (leaves_spell hname elem).map
  | .byRef elem => by
    rw [spell, TypeSig.render]
    exact (leaves_spell hname elem).map
  | .pinned elem => by
    rw [spell, TypeSig.render]
    exact (leaves_spell hname elem).map
  | .modified required tok elem => by
    rw [spell, TypeSig.render]
    exact (leaves_spell hname elem).bind (hname tok).map
  | .typeVar i => by
    rw [spell, TypeSig.render]
    exact leaves_pure _ _
  | .methodVar i => by
    rw [spell, TypeSig.render]
    exact leaves_pure _ _
  | .fnPtr head ret params sentinel complete bytes => by
    rw [spell, TypeSig.render]
    exact (leaves_spell hname ret).bind (leaves_spellAll hname params).map

theorem leaves_spellAll (hname : ∀ tok, Leaves (name tok) depth (f tok)) :
    ∀ ts : List TypeSig, Leaves (spellAll name ts) depth (TypeSig.renderAll f ts)
  | [] => by
    rw [spellAll, TypeSig.renderAll]
    exact leaves_pure _ _
  | t :: rest => by
    rw [spellAll, TypeSig.renderAll]
    exact (leaves_spell hname t).bind (leaves_spellAll hname rest).map

end

end Spelling

section Names

variable {img : Image} {tok : Token}

/-- Tokens of types that are no specifications are named without looking at the counter. -/
theorem name_eq_pure (h : tok.table? ≠ some .typeSpec) (nest levels : Nat) :
    name img (nest + 1) tok = pure (img.nameWithin levels tok) := by
  rw [name]
  unfold Image.nameWithin
  cases htable : tok.table? with
  | none => rfl
  | some t =>
    cases t
    case typeSpec => exact absurd htable h
    case typeDef | typeRef =>
      dsimp only
      cases img.typeName tok with
      | ok text => rfl
      | error f => rfl
    all_goals rfl

/-- When no level is left, a specification is shown as its token. -/
theorem leaves_name_of_full (h : tok.table? = some .typeSpec) {depth : Int}
    (hfull : Decode.maxLevels ≤ depth) (nest : Nat) :
    Leaves (name img (nest + 1) tok) depth (img.nameWithin 0 tok) := by
  rw [name]
  unfold Image.nameWithin
  simp only [h]
  show (if (Decode.maxLevels : Int) ≤ depth then _ else _ : StateT Int Option Text) depth = _
  rw [if_pos hfull]
  rfl

/-- Otherwise its type is spelled with the counter one higher. A type that cannot be read has not
moved the counter, and behind one that can be read it is put back. -/
theorem leaves_name_of_room (h : tok.table? = some .typeSpec) {depth : Int} {nest levels : Nat}
    (hroom : depth < Decode.maxLevels)
    (hdeeper : ∀ tok, Leaves (name img nest tok) (depth + 1) (img.nameWithin levels tok)) :
    Leaves (name img (nest + 1) tok) depth (img.nameWithin (levels + 1) tok) := by
  rw [name]
  unfold Image.nameWithin
  simp only [h]
  show (if (Decode.maxLevels : Int) ≤ depth then _ else _ : StateT Int Option Text) depth = _
  rw [if_neg (by omega)]
  cases img.typeSpec tok with
  | error f => rfl
  | ok t =>
    have hup : (modify (· + 1) : StateT Int Option PUnit) depth = some (⟨⟩, depth + 1) := rfl
    have hspell := leaves_spell hdeeper t
    dsimp only
    rw [bind_apply hup, bind_apply hspell]
    show some (t.render (img.nameWithin levels), depth + 1 - 1) = _
    rw [Int.add_sub_cancel]

/-- **Naming ends and leaves the counter.** It spells as many levels as the counter leaves, and
follows one name more. -/
theorem leaves_name (levels : Nat) : ∀ (depth : Int) (nest : Nat),
    depth + levels = Decode.maxLevels → levels < nest →
      ∀ tok, Leaves (name img nest tok) depth (img.nameWithin levels tok) := by
  -- Each specification takes one of the levels that are left.
  induction levels with
  | zero =>
    intro depth nest hdepth hnest tok
    obtain ⟨nest, rfl⟩ : ∃ k, nest = k + 1 := ⟨nest - 1, by omega⟩
    by_cases h : tok.table? = some .typeSpec
    · exact leaves_name_of_full h (by omega) nest
    · rw [name_eq_pure h nest 0]
      exact leaves_pure _ _
  | succ levels ih =>
    intro depth nest hdepth hnest tok
    obtain ⟨nest, rfl⟩ : ∃ k, nest = k + 1 := ⟨nest - 1, by omega⟩
    by_cases h : tok.table? = some .typeSpec
    · exact leaves_name_of_room h (by omega) (ih (depth + 1) nest (by omega) (by omega))
    · rw [name_eq_pure h nest (levels + 1)]
      exact leaves_pure _ _

end Names

/-! ## Answers -/

section Answers

variable {img : Image} {nest : Nat}

/-- **Every answer of a new namer comes, and leaves the namer as new.** -/
theorem leaves_answer (h : Decode.maxLevels < nest) (r : Request) :
    Leaves (answer img nest r) 0 (r.text img) := by
  have hname : ∀ tok, Leaves (name img nest tok) 0 (img.nameOf tok) :=
    leaves_name Decode.maxLevels 0 nest (Int.zero_add _) h
  cases r with
  | token tok => exact hname tok
  | type t => exact leaves_spell hname t
  | method m label =>
    exact (leaves_spell hname m.ret).bind (leaves_spellAll hname m.params.types).map

theorem leaves_answers (h : Decode.maxLevels < nest) (requests : List Request) :
    Leaves (requests.mapM (answer img nest)) 0 (requests.map (Request.text img)) := by
  induction requests with
  | nil => exact leaves_pure _ _
  | cons r rest ih =>
    rw [List.mapM_cons, List.map_cons]
    exact (leaves_answer h r).bind ih.map

end Answers

/-- **Naming ends on every image and has no memory.** There is a number of names, one within the
other, that is never passed, whatever the specifications of the image refer to. Whatever one namer
is asked for in a row, it gives all answers, each of them the one that a new namer gives. -/
theorem naming_ends_without_memory : ∃ bound : Nat, ∀ (img : Image) (requests : List Request),
    ∃ answers : List Text, ∀ nest, bound ≤ nest →
      (requests.mapM (answer img nest)) 0 = some (answers, 0)
        ∧ List.Forall₂ (fun r text => answer img nest r 0 = some (text, 0) ∧ text = r.text img)
          requests answers := by
  refine ⟨Decode.maxLevels + 1, fun img requests => ⟨requests.map (Request.text img), ?_⟩⟩
  intro nest hnest
  refine ⟨leaves_answers hnest requests, ?_⟩
  rw [List.forall₂_map_right_iff]
  exact List.forall₂_same.mpr fun r _ => ⟨leaves_answer hnest r, rfl⟩

end ManagedImage.Namer
