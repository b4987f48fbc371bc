/-
The type decoder and its grammar.

One half is `spells_encode`: what is written is read back. The other half goes
through the decoder once more, with `Repeats`: a type it returns nests no deeper
than it may go down, has void only where it is allowed and tokens of types only,
and its function pointers give their parameters again. The last theorem puts both
together.
-/
import ManagedImage.Proofs.Signature.Rereading

set_option autoImplicit false

namespace ManagedImage

open Decode

namespace Decode

/-! ## All tags -/

theorem ofCode?_eq_some {tag : Nat} {p : Primitive} (h : Primitive.ofCode? tag = some p) :
    tag = p.code :=
  (of_decide_eq_true (List.find?_some (p := fun p => decide (Primitive.code p = tag)) h)).symm

/-- A tag introduces one of the forms, or no type. -/
theorem tag_cases (tag : Nat) :
    (∃ p, tag = Primitive.code p) ∨ (∃ isValue, tag = classTag isValue)
      ∨ (∃ required, tag = modifierTag required)
      ∨ tag = Element.genericInst ∨ tag = Element.ptr ∨ tag = Element.byRef
      ∨ tag = Element.szArray ∨ tag = Element.pinned ∨ tag = Element.array ∨ tag = Element.fnPtr
      ∨ tag = Element.typeVar ∨ tag = Element.methodVar
      ∨ ∀ inner v at_, typeBody inner v at_ tag = typeBody.invalid at_ tag := by
  cases hprim : Primitive.ofCode? tag with
  | some p => exact Or.inl ⟨p, ofCode?_eq_some hprim⟩
  | none =>
    by_cases hclass : tag = Element.classType
    · exact Or.inr (Or.inl ⟨false, hclass⟩)
    by_cases hvalue : tag = Element.valueType
    · exact Or.inr (Or.inl ⟨true, hvalue⟩)
    by_cases hrequired : tag = Element.required
    · exact Or.inr (Or.inr (Or.inl ⟨true, hrequired⟩))
    by_cases hoptional : tag = Element.optional
    · exact Or.inr (Or.inr (Or.inl ⟨false, hoptional⟩))
    by_cases hinst : tag = Element.genericInst
    · simp only [hinst, true_or, or_true]
    by_cases hptr : tag = Element.ptr
    · simp only [hptr, true_or, or_true]
    by_cases hbyRef : tag = Element.byRef
    · simp only [hbyRef, true_or, or_true]
    by_cases hszArray : tag = Element.szArray
    · simp only [hszArray, true_or, or_true]
    by_cases hpinned : tag = Element.pinned
    · simp only [hpinned, true_or, or_true]
    by_cases harray : tag = Element.array
    · simp only [harray, true_or, or_true]
    by_cases hfnPtr : tag = Element.fnPtr
    · simp only [hfnPtr, true_or, or_true]
    by_cases htypeVar : tag = Element.typeVar
    · simp only [htypeVar, true_or, or_true]
    by_cases hmethodVar : tag = Element.methodVar
    · simp only [hmethodVar, true_or, or_true]
    -- No form has the tag.
    have hnone : ∀ inner v at_, typeBody inner v at_ tag = typeBody.invalid at_ tag := by
      intro inner v at_
      unfold typeBody
      simp only [hprim, hclass, hvalue, hrequired, hoptional, hinst, hptr, hbyRef, hszArray, hpinned,
        harray, hfnPtr, htypeVar, hmethodVar, or_self, if_false]
    simp only [hnone, implies_true, or_true]

end Decode

namespace TypeSig

/-! ## What the decoder returns -/

/-- What the decoder makes sure of at every node. -/
def Decoded (v : Bool) (t : TypeSig) : Prop := t.VoidPlaced v ∧ t.TypeToken v ∧ t.Rereadable v

/-- The type nests at most so deep, and the decoder has made sure of its nodes. -/
def Sound (levels : Nat) (v : Bool) (t : TypeSig) : Prop :=
  t.levels ≤ levels ∧ t.Everywhere Decoded v

/-- The parameters that a decoded function pointer gives are those at the node. -/
theorem rereadable_fnPtr {head : MethodHead} {scan : ParamScan} {bytes : List UInt8}
    (ret : TypeSig) (v : Bool)
    (h : Reads 0 (paramStep (Decode.type false) head.paramCount) bytes (scan, bytes)) :
    (TypeSig.fnPtr head ret scan.types scan.sentinel true bytes).Rereadable v := by
  refine ⟨rfl, ?_⟩
  have hrun := h 0 [] (Nat.le_refl 0)
  rw [List.append_nil] at hrun
  unfold paramStep at hrun
  unfold MethodSig.params Decoder.start
  dsimp only
  generalize Decode.params (Decode.type false) head.paramCount .none ⟨0, bytes⟩ = result at hrun ⊢
  obtain ⟨f | ⟨⟩, scan', d'⟩ := result
  · cases hrun
  · obtain ⟨hscan, -⟩ := EStateM.Result.ok.inj hrun
    rw [(Prod.mk.inj hscan).1]

theorem sound_all {levels : Nat} {ts : List TypeSig} (h : ∀ t ∈ ts, t.Sound levels false) :
    levelsAll ts ≤ levels ∧ EverywhereAll Decoded ts :=
  ⟨levelsAll_le fun t ht => (h t ht).1, everywhereAll_iff.mpr fun t ht => (h t ht).2⟩

/-- A node without void, whose token if any refers to a type. -/
theorem decoded_node {t : TypeSig} {v : Bool} (hvoid : t ≠ .prim .void) (htoken : t.TypeToken v)
    (hre : t.Rereadable v) : t.Decoded v :=
  ⟨fun h => absurd h hvoid, htoken, hre⟩

section Branches

variable {levels : Nat} {x y : Bool → Decode TypeSig} (v : Bool)

/-- A type that is built from another one inside it. -/
theorem repeats_wrap {step again : Decode TypeSig} {w : Bool}
    (h : Repeats (fun _ => 0) 1 (Sound levels w) step again) (wrap : TypeSig → TypeSig)
    (hwrap : ∀ t, t.Sound levels w → (wrap t).Sound (levels + 1) v) :
    Repeats (fun _ => 0) 0 (Sound (levels + 1) v) (step >>= fun t => pure (wrap t))
      (again >>= fun t => pure (wrap t)) :=
  (h.map wrap (fun _ => rfl) hwrap).atLeast (Nat.zero_le 1)

/-- A type that is built from an index alone. -/
theorem repeats_index (what : String) (wrap : Nat → TypeSig)
    (hwrap : ∀ i, (wrap i).Sound (levels + 1) v) :
    Repeats (fun _ => 0) 0 (Sound (levels + 1) v) (compressed what >>= fun i => pure (wrap i))
      (compressed what >>= fun i => pure (wrap i)) :=
  ((repeats_compressed what).map wrap (fun _ => rfl) fun i _ => hwrap i).atLeast (Nat.zero_le 1)

theorem repeats_instBody {step again : Decode TypeSig}
    (h : Repeats (fun _ => 0) 1 (Sound levels false) step again) :
    Repeats (fun _ => 0) 1 (Sound (levels + 1) v) (instBody step) (instBody again) := by
  refine Repeats.of_offset fun o o' => ?_
  refine Repeats.after_byte (fun flag => ?_) "generic instance"
  by_cases hflag : flag.toNat ≠ Element.classType ∧ flag.toNat ≠ Element.valueType
  · rw [if_pos hflag]
    exact repeats_throw _ _
  · rw [if_neg hflag, if_neg hflag]
    refine Repeats.atLeast (repeats_token.bind (fun tok htok => ?_) fun _ => Nat.zero_le 1)
      (Nat.zero_le 1)
    refine (repeats_counted _ _ h).map _ (fun _ => rfl) fun args hargs => ?_
    obtain ⟨hlevels, hall⟩ := sound_all hargs
    exact ⟨Nat.succ_le_succ hlevels, decoded_node TypeSig.noConfusion htok trivial, hall⟩

theorem repeats_array (h : Repeats (fun _ => 0) 1 (Sound levels false) (x false) (y false))
    (o o' : Nat) :
    Repeats (fun _ => 0) 1 (Sound (levels + 1) v) (typeBody x v o Element.array)
      (typeBody y v o' Element.array) := by
  rw [typeBody_array, typeBody_array]
  refine h.bind (fun elem helem => ?_) fun _ => Nat.zero_le 1
  refine (repeats_compressed _).bind (fun rank _ => ?_) fun _ => Nat.zero_le 1
  refine (repeats_counted _ _ (repeats_compressed _)).bind (fun sizes _ => ?_) fun _ => Nat.zero_le 1
  refine (repeats_counted _ _ repeats_signed).map _ (fun _ => rfl) fun lower _ => ?_
  exact ⟨Nat.succ_le_succ helem.1, decoded_node TypeSig.noConfusion trivial trivial, helem.2⟩

/-- The parameters are also read by a fresh decoder, from the top. -/
theorem repeats_fnPtr (h : ∀ v, Repeats (fun _ => 0) 1 (Sound levels v) (x v) (y v))
    (hfresh : Repeats (fun _ => 0) 1 (Sound levels false) (x false) (Decode.type false)) (o o' : Nat) :
    Repeats (fun _ => 0) 1 (Sound (levels + 1) v) (typeBody x v o Element.fnPtr)
      (typeBody y v o' Element.fnPtr) := by
  rw [typeBody_fnPtr, typeBody_fnPtr]
  refine (repeats_methodHead _).bind (k := fun head => 1 + head.paramCount) (fun head _ => ?_)
    fun head => Nat.le_add_left _ _
  refine (h true).bind_atLeast (k := fun _ => head.paramCount) (fun ret hret => ?_)
    (fun _ => Nat.zero_le _) fun _ => Nat.le_refl _
  -- The parameters are read again twice: by the decoder that goes on, and by one that starts anew.
  have hparams := (repeats_paramStep (h false) head.paramCount).and
    (repeats_paramStep hfresh head.paramCount)
  refine hparams.map _ (fun _ => rfl) fun r hr => ?_
  obtain ⟨⟨htypes, -⟩, -, hreads⟩ := hr
  obtain ⟨hlevels, hall⟩ := sound_all htypes
  refine ⟨Nat.succ_le_succ (Nat.max_le.mpr ⟨hret.1, hlevels⟩), ?_, hret.2, hall⟩
  exact decoded_node TypeSig.noConfusion trivial (rereadable_fnPtr ret v hreads)

/-- **One level of types.** If the types inside are sound and read again, so is the type. -/
theorem repeats_typeBody (h : ∀ v, Repeats (fun _ => 0) 1 (Sound levels v) (x v) (y v))
    (hfresh : Repeats (fun _ => 0) 1 (Sound levels false) (x false) (Decode.type false))
    (o o' tag : Nat) :
    Repeats (fun _ => 0) 0 (Sound (levels + 1) v) (typeBody x v o tag) (typeBody y v o' tag) := by
  rcases tag_cases tag with ⟨p, rfl⟩ | ⟨isValue, rfl⟩ | ⟨required, rfl⟩ | rfl | rfl | rfl | rfl | rfl |
    rfl | rfl | rfl | rfl | hinvalid
  · -- Void alone depends on where it stands.
    by_cases hsystem : p = .systemType
    · subst hsystem
      exact repeats_throw _ _
    by_cases hvoid : p = .void → v = true
    · rw [typeBody_prim x v o hvoid hsystem, typeBody_prim y v o' hvoid hsystem]
      refine repeats_pure ⟨Nat.succ_le_succ (Nat.zero_le levels), fun hp => ?_, trivial, trivial⟩
      exact hvoid (TypeSig.prim.inj hp)
    · obtain ⟨rfl, hv⟩ := Classical.not_imp.mp hvoid
      rw [Bool.not_eq_true] at hv
      subst hv
      exact repeats_throw _ _
  · rw [typeBody_named, typeBody_named]
    refine Repeats.atLeast (repeats_token.map _ (fun _ => rfl) fun tok htok => ?_) (Nat.zero_le 1)
    exact ⟨Nat.succ_le_succ (Nat.zero_le levels), decoded_node TypeSig.noConfusion htok trivial⟩
  · rw [typeBody_modified, typeBody_modified]
    refine Repeats.atLeast (repeats_token.bind (fun tok htok => ?_) fun _ => Nat.zero_le 1)
      (Nat.zero_le 1)
    refine (h v).map _ (fun _ => rfl) fun t ht => ?_
    exact ⟨Nat.succ_le_succ ht.1, decoded_node TypeSig.noConfusion htok trivial, ht.2⟩
  · exact (repeats_instBody v (h false)).atLeast (Nat.zero_le 1)
  -- A pointer is the one form that allows void inside.
  · exact repeats_wrap v (h true) .pointer fun t ht =>
      ⟨Nat.succ_le_succ ht.1, decoded_node TypeSig.noConfusion trivial trivial, ht.2⟩
  · exact repeats_wrap v (h false) .byRef fun t ht =>
      ⟨Nat.succ_le_succ ht.1, decoded_node TypeSig.noConfusion trivial trivial, ht.2⟩
  · exact repeats_wrap v (h false) .szArray fun t ht =>
      ⟨Nat.succ_le_succ ht.1, decoded_node TypeSig.noConfusion trivial trivial, ht.2⟩
  · exact repeats_wrap v (h false) .pinned fun t ht =>
      ⟨Nat.succ_le_succ ht.1, decoded_node TypeSig.noConfusion trivial trivial, ht.2⟩
  · exact (repeats_array v (h false) o o').atLeast (Nat.zero_le 1)
  · exact (repeats_fnPtr v h hfresh o o').atLeast (Nat.zero_le 1)
  · exact repeats_index v "generic parameter index" .typeVar fun i =>
      ⟨Nat.succ_le_succ (Nat.zero_le levels), decoded_node TypeSig.noConfusion trivial trivial⟩
  · exact repeats_index v "generic parameter index" .methodVar fun i =>
      ⟨Nat.succ_le_succ (Nat.zero_le levels), decoded_node TypeSig.noConfusion trivial trivial⟩
  · rw [hinvalid]
    exact repeats_throw _ _

end Branches

/-- **Every type that is read is sound, and is read again** by a decoder that may go down at least
as far. -/
theorem repeats_typeWithin (levels : Nat) : ∀ (further : Nat) (v : Bool), levels ≤ further →
    levels ≤ maxLevels →
    Repeats (fun _ => 0) 1 (Sound levels v) (typeWithin levels v) (typeWithin further v) := by
  induction levels with
  | zero =>
    intro further v _ _ d t d' hrun
    cases hrun
  | succ levels ih =>
    intro further v hle hmax
    obtain ⟨further, rfl⟩ : ∃ k, further = k + 1 := ⟨further - 1, by omega⟩
    refine Repeats.of_offset fun o o' => ?_
    refine Repeats.after_byte (fun b => ?_) "element type"
    exact repeats_typeBody v (fun v => ih further v (by omega) (by omega))
      (ih maxLevels false (by omega) (by omega)) o o' b.toNat

end TypeSig

/-- **The type decoder implements its grammar.** The bytes of a type that nests at most 64 levels
deep, and has void only behind a pointer or as a return type, are read back to that type, whatever
follows, and nothing else is read. Every type that is read is of that kind, its tokens refer to
tables of types, and its function pointers give their parameters when they are asked for them. -/
theorem type_decodes_grammar :
    (∀ (t : TypeSig) (bs : List UInt8), t.encode = .ok bs → t.levels ≤ 64 →
        t.Everywhere TypeSig.VoidPlaced false → ∀ (offset : Nat) (s : List UInt8),
        ∃ u, Decode.type false ⟨offset, bs ++ s⟩ = .ok u ⟨offset + bs.length, s⟩
          ∧ u.bare = t.bare ∧ u.Everywhere TypeSig.Rereadable false)
      ∧ ∀ (d d' : Decoder) (t : TypeSig), Decode.type false d = .ok t d' → t.levels ≤ 64
          ∧ t.Everywhere TypeSig.VoidPlaced false ∧ t.Everywhere TypeSig.TypeToken false
          ∧ t.Everywhere TypeSig.Rereadable false := by
  -- The decoder itself is one that may go down as many levels.
  have hsound : ∀ (d d' : Decoder) (t : TypeSig), Decode.type false d = .ok t d' →
      t.Sound maxLevels false := fun d d' t hrun =>
    (TypeSig.repeats_typeWithin maxLevels maxLevels false (Nat.le_refl _) (Nat.le_refl _) d t d'
      hrun).1
  constructor
  · intro t bs henc hlevels hplaced offset s
    obtain ⟨u, hbare, -, hreads⟩ := TypeSig.spells_encode maxLevels t false bs henc hlevels hplaced
    have hrun := hreads offset s (Nat.zero_le _)
    obtain ⟨-, hall⟩ := hsound _ _ u hrun
    exact ⟨u, hrun, hbare, TypeSig.Everywhere.mono (fun _ _ h => h.2.2) u false hall⟩
  · intro d d' t hrun
    obtain ⟨hlevels, hall⟩ := hsound d d' t hrun
    exact ⟨hlevels, TypeSig.Everywhere.mono (fun _ _ h => h.1) t false hall,
      TypeSig.Everywhere.mono (fun _ _ h => h.2.1) t false hall,
      TypeSig.Everywhere.mono (fun _ _ h => h.2.2) t false hall⟩

/-- A pointer to a method with a variable argument list: it takes a 32-bit integer and, behind the
sentinel, an array of strings, and returns a pointer to void. -/
def varargPointer : TypeSig :=
  .fnPtr ⟨false, false, 5, false, none, 2⟩ (.pointer (.prim .void))
    [.prim .i4, .szArray (.prim .string)] (some 1) true []

theorem type_decodes_grammar_varargPointer :
    (∃ u, Decode.type false ⟨0, [0x1B, 0x05, 0x02, 0x0F, 0x01, 0x08, 0x41, 0x1D, 0x0E, 0xFF]⟩
          = .ok u ⟨9, [0xFF]⟩ ∧ u.bare = varargPointer.bare ∧ u.Everywhere TypeSig.Rereadable false)
      ∧ (TypeSig.pointer (.prim .void)).levels ≤ 64 := by
  constructor
  · have henc : varargPointer.encode
        = .ok [0x1B, 0x05, 0x02, 0x0F, 0x01, 0x08, 0x41, 0x1D, 0x0E] := rfl
    have hplaced : varargPointer.Everywhere TypeSig.VoidPlaced false := by
      simp [varargPointer, TypeSig.Everywhere, TypeSig.EverywhereAll, TypeSig.VoidPlaced]
    exact type_decodes_grammar.1 varargPointer _ henc (by decide) hplaced 0 [0xFF]
  · have hrun : Decode.type false ⟨0, [0x0F, 0x01]⟩ = .ok (.pointer (.prim .void)) ⟨2, []⟩ := rfl
    exact (type_decodes_grammar.2 _ _ _ hrun).1

end ManagedImage
