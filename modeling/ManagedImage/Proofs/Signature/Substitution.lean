/-
Instantiating a type is a substitution.

`TypeSig.openParams` lists the generic parameters of a type from left to right, those
inside function pointers left out: they have a scope of their own. Instantiation looks
every one of them up in the two lists of arguments. One equation says what comes of it
(`instantiate_eq`): the fault of the first parameter that no argument stands for, and
otherwise the type with its parameters replaced, `TypeSig.substitute`, which cannot fail.

All the rest is about `substitute` and `openParams` alone. Two substitutions in a row are
one that substitutes into what the first one puts in (`substitute_substitute`), and the
parameters that are open afterwards are those of what was put in
(`openParams_substitute`). The composition law is these two, read through the equation.
-/
import ManagedImage.Signature.TypeSig
import ManagedImage.Proofs.Results

set_option autoImplicit false

namespace ManagedImage

/-! ## Generic parameters -/

/-- A generic parameter, by its position. -/
inductive GenericParam where
  /-- Of the type. -/
  | ofType (index : Nat)
  /-- Of the method. -/
  | ofMethod (index : Nat)
deriving DecidableEq, Repr

namespace GenericParam

/-- The argument that stands for the parameter, if the list of its kind is long enough. -/
def argument? (typeArgs methodArgs : List TypeSig) : GenericParam → Option TypeSig
  | .ofType i => typeArgs[i]?
  | .ofMethod i => methodArgs[i]?

/-- The argument that stands for the parameter, void if there is none. -/
def argument (typeArgs methodArgs : List TypeSig) (p : GenericParam) : TypeSig :=
  (p.argument? typeArgs methodArgs).getD (.prim .void)

/-- The fault of a parameter that no argument stands for. -/
def missing (typeArgs methodArgs : List TypeSig) : GenericParam → Fault
  | .ofType i => TypeSig.missingArgument "type" s!"!{i}" typeArgs.length
  | .ofMethod i => TypeSig.missingArgument "method" s!"!!{i}" methodArgs.length

/-- An argument stands for the parameter. -/
def Given (typeArgs methodArgs : List TypeSig) : GenericParam → Prop
  | .ofType i => i < typeArgs.length
  | .ofMethod i => i < methodArgs.length

variable {typeArgs methodArgs : List TypeSig} {p : GenericParam}

theorem given_iff : p.Given typeArgs methodArgs ↔ ∃ t, p.argument? typeArgs methodArgs = some t := by
  rw [← Option.isSome_iff_exists]
  cases p with
  | ofType i | ofMethod i => simp only [Given, argument?, isSome_getElem?]

theorem not_given_iff : ¬ p.Given typeArgs methodArgs ↔ p.argument? typeArgs methodArgs = none := by
  rw [given_iff, ← Option.isSome_iff_exists, Bool.not_eq_true, Option.isSome_eq_false_iff,
    Option.isNone_iff_eq_none]

end GenericParam

namespace TypeSig

/-! ## Open parameters and their replacement -/

mutual

/-- The generic parameters of a type outside function pointers, from left to right. -/
def openParams : TypeSig → List GenericParam
  | .typeVar i => [.ofType i]
  | .methodVar i => [.ofMethod i]
  | .inst _ _ args => openParamsAll args
  | .array elem _ _ _ => elem.openParams
  | .szArray elem => elem.openParams
  | .pointer elem => elem.openParams
  | .byRef elem => elem.openParams
  | .pinned elem => elem.openParams
  | .modified _ _ elem => elem.openParams
  | .prim _ | .named .. | .fnPtr .. => []

/-- The generic parameters of some types outside function pointers. -/
def openParamsAll : List TypeSig → List GenericParam
  | [] => []
  | t :: rest => t.openParams ++ openParamsAll rest

end

mutual

/-- The type with something in place of each of its open parameters. -/
def substitute (f : GenericParam → TypeSig) : TypeSig → TypeSig
  | .typeVar i => f (.ofType i)
  | .methodVar i => f (.ofMethod i)
  | .inst tok isValue args => .inst tok isValue (substituteAll f args)
  | .array elem rank sizes lower => .array (elem.substitute f) rank sizes lower
  | .szArray elem => .szArray (elem.substitute f)
  | .pointer elem => .pointer (elem.substitute f)
  | .byRef elem => .byRef (elem.substitute f)
  | .pinned elem => .pinned (elem.substitute f)
  | .modified required tok elem => .modified required tok (elem.substitute f)
  | t => t

/-- The types with something in place of each of their open parameters. -/
def substituteAll (f : GenericParam → TypeSig) : List TypeSig → List TypeSig
  | [] => []
  | t :: rest => t.substitute f :: substituteAll f rest

end

section Substitute

variable {f g : GenericParam → TypeSig}

/-- Only what stands for the open parameters matters. -/
theorem substitute_congr (t : TypeSig) (h : ∀ p ∈ t.openParams, f p = g p) :
    t.substitute f = t.substitute g := by
  induction t using TypeSig.rec
    (motive_2 := fun ts => (∀ p ∈ openParamsAll ts, f p = g p) →
      substituteAll f ts = substituteAll g ts) with
  | typeVar i | methodVar i => exact h _ (List.mem_singleton_self _)
  | inst tok isValue args ih => rw [substitute, substitute, ih h]
  | array elem _ _ _ ih | szArray elem ih | pointer elem ih | byRef elem ih | pinned elem ih
  | modified _ _ elem ih => rw [substitute, substitute, ih h]
  | prim | named | fnPtr => rfl
  | nil => rfl
  | cons t rest iht ihrest h =>
    rw [openParamsAll, List.forall_mem_append] at h
    rw [substituteAll, substituteAll, iht h.1, ihrest h.2]

/-- A type without open parameters is left as it is. -/
theorem substitute_of_closed (t : TypeSig) (h : t.openParams = []) : t.substitute f = t := by
  induction t using TypeSig.rec
    (motive_2 := fun ts => openParamsAll ts = [] → substituteAll f ts = ts) with
  | typeVar i | methodVar i => cases h
  | inst tok isValue args ih => rw [substitute, ih h]
  | array elem _ _ _ ih | szArray elem ih | pointer elem ih | byRef elem ih | pinned elem ih
  | modified _ _ elem ih => rw [substitute, ih h]
  | prim | named | fnPtr => rfl
  | nil => rfl
  | cons t rest iht ihrest h =>
    obtain ⟨ht, hrest⟩ := List.append_eq_nil_iff.mp h
    rw [substituteAll, iht ht, ihrest hrest]

/-- The parameters that are open afterwards are those of what was put in, in order. -/
theorem openParams_substitute (t : TypeSig) :
    (t.substitute f).openParams = t.openParams.flatMap fun p => (f p).openParams := by
  induction t using TypeSig.rec
    (motive_2 := fun ts => openParamsAll (substituteAll f ts)
      = (openParamsAll ts).flatMap fun p => (f p).openParams) with
  | typeVar i | methodVar i => exact (List.flatMap_singleton _ _).symm
  | inst tok isValue args ih => exact ih
  | array elem _ _ _ ih | szArray elem ih | pointer elem ih | byRef elem ih | pinned elem ih
  | modified _ _ elem ih => exact ih
  | prim | named | fnPtr => rfl
  | nil => rfl
  | cons t rest iht ihrest =>
    rw [substituteAll, openParamsAll, iht, ihrest, openParamsAll, List.flatMap_append]

/-- **Two substitutions in a row** are one: the second goes on in what the first one puts in. -/
theorem substitute_substitute (t : TypeSig) :
    (t.substitute f).substitute g = t.substitute fun p => (f p).substitute g := by
  induction t using TypeSig.rec
    (motive_2 := fun ts => substituteAll g (substituteAll f ts)
      = substituteAll (fun p => (f p).substitute g) ts) with
  | typeVar i | methodVar i => rfl
  | inst tok isValue args ih => rw [substitute, substitute, substitute, ih]
  | array elem _ _ _ ih | szArray elem ih | pointer elem ih | byRef elem ih | pinned elem ih
  | modified _ _ elem ih => rw [substitute, substitute, substitute, ih]
  | prim | named | fnPtr => rfl
  | nil => rfl
  | cons t rest iht ihrest => rw [substituteAll, substituteAll, substituteAll, iht, ihrest]

end Substitute

/-! ## Instantiation -/

section Instantiate

variable {typeArgs methodArgs : List TypeSig}

/-- What comes of looking some parameters up: the fault of the first that no argument stands for,
or the result if there is none. -/
def orMissing {α : Type} (typeArgs methodArgs : List TypeSig) (ps : List GenericParam)
    (result : α) : Except Fault α :=
  match ps.find? fun p => (p.argument? typeArgs methodArgs).isNone with
  | some p => .error (p.missing typeArgs methodArgs)
  | none => .ok result

theorem orMissing_bind {α β : Type} {ps : List GenericParam} {a : α} (k : α → β) :
    (orMissing typeArgs methodArgs ps a >>= fun a => pure (k a))
      = orMissing typeArgs methodArgs ps (k a) := by
  unfold orMissing
  cases ps.find? _ <;> rfl

/-- Parameters are looked up one list after the other. -/
theorem orMissing_append {α β γ : Type} {ps qs : List GenericParam} {a : α} {b : β}
    (k : α → β → γ) :
    (do
      let a ← orMissing typeArgs methodArgs ps a
      let b ← orMissing typeArgs methodArgs qs b
      pure (k a b)) = orMissing typeArgs methodArgs (ps ++ qs) (k a b) := by
  unfold orMissing
  rw [List.find?_append]
  cases ps.find? _ with
  | some p => rfl
  | none => cases qs.find? _ <;> rfl

/-- **What instantiation gives**, for any type. -/
theorem instantiate_eq (typeArgs methodArgs : List TypeSig) (t : TypeSig) :
    t.instantiate typeArgs methodArgs = orMissing typeArgs methodArgs t.openParams
      (t.substitute (GenericParam.argument typeArgs methodArgs)) := by
  induction t using TypeSig.rec
    (motive_2 := fun ts => instantiateAll typeArgs methodArgs ts
      = orMissing typeArgs methodArgs (openParamsAll ts)
        (substituteAll (GenericParam.argument typeArgs methodArgs) ts)) with
  | typeVar i =>
    cases hi : typeArgs[i]? <;>
      simp [instantiate, orMissing, openParams, substitute, GenericParam.argument,
        GenericParam.argument?, GenericParam.missing, hi]
  | methodVar i =>
    cases hi : methodArgs[i]? <;>
      simp [instantiate, orMissing, openParams, substitute, GenericParam.argument,
        GenericParam.argument?, GenericParam.missing, hi]
  | inst tok isValue args ih =>
    rw [instantiate, ih]
    exact orMissing_bind _
  | array elem _ _ _ ih | szArray elem ih | pointer elem ih | byRef elem ih | pinned elem ih
  | modified _ _ elem ih =>
    rw [instantiate, ih]
    exact orMissing_bind _
  | prim | named | fnPtr => rfl
  | nil => rfl
  | cons t rest iht ihrest =>
    rw [instantiateAll, iht, ihrest]
    exact orMissing_append List.cons

theorem not_given_of_find? {ps : List GenericParam} {p : GenericParam}
    (h : (ps.find? fun p => (p.argument? typeArgs methodArgs).isNone) = some p) :
    p ∈ ps ∧ ¬ p.Given typeArgs methodArgs := by
  obtain ⟨hnone, before, after, rfl, -⟩ := List.find?_eq_some_iff_append.mp h
  refine ⟨List.mem_append_right _ List.mem_cons_self, ?_⟩
  exact GenericParam.not_given_iff.mpr (Option.isNone_iff_eq_none.mp hnone)

theorem orMissing_eq_ok_iff {α : Type} {ps : List GenericParam} {a b : α} :
    orMissing typeArgs methodArgs ps a = .ok b
      ↔ (∀ p ∈ ps, p.Given typeArgs methodArgs) ∧ a = b := by
  unfold orMissing
  cases hfind : ps.find? fun p => (p.argument? typeArgs methodArgs).isNone with
  | some p =>
    obtain ⟨hp, hmissing⟩ := not_given_of_find? hfind
    exact ⟨fun h => (nomatch h), fun h => absurd (h.1 p hp) hmissing⟩
  | none =>
    rw [List.find?_eq_none] at hfind
    have hgiven : ∀ p ∈ ps, p.Given typeArgs methodArgs := by
      intro p hp
      by_contra hmissing
      exact hfind p hp (Option.isNone_iff_eq_none.mpr (GenericParam.not_given_iff.mp hmissing))
    rw [Except.ok.injEq]
    exact ⟨fun h => ⟨hgiven, h⟩, fun h => h.2⟩

theorem orMissing_eq_error {α : Type} {ps : List GenericParam} {a : α} {f : Fault}
    (h : orMissing typeArgs methodArgs ps a = .error f) :
    ∃ p ∈ ps, ¬ p.Given typeArgs methodArgs ∧ f = p.missing typeArgs methodArgs := by
  unfold orMissing at h
  cases hfind : ps.find? fun p => (p.argument? typeArgs methodArgs).isNone with
  | some p =>
    obtain ⟨hp, hmissing⟩ := not_given_of_find? hfind
    rw [hfind] at h
    exact ⟨p, hp, hmissing, (Except.error.inj h).symm⟩
  | none =>
    rw [hfind] at h
    cases h

variable {t r : TypeSig}

theorem instantiate_eq_ok_iff : t.instantiate typeArgs methodArgs = .ok r
    ↔ (∀ p ∈ t.openParams, p.Given typeArgs methodArgs)
      ∧ t.substitute (GenericParam.argument typeArgs methodArgs) = r := by
  rw [instantiate_eq, orMissing_eq_ok_iff]

/-! ## Composition -/

variable {outerTypeArgs outerMethodArgs typeArgs' methodArgs' : List TypeSig}

/-- Instantiating an argument that is there gives the one that stands in the same place. -/
theorem exists_argument_of_forall₂ {p : GenericParam}
    (htypes : List.Forall₂ (fun a a' => a.instantiate outerTypeArgs outerMethodArgs = .ok a')
      typeArgs typeArgs')
    (hmethods : List.Forall₂ (fun a a' => a.instantiate outerTypeArgs outerMethodArgs = .ok a')
      methodArgs methodArgs')
    (hgiven : p.Given typeArgs methodArgs) : p.Given typeArgs' methodArgs'
      ∧ (p.argument typeArgs methodArgs).instantiate outerTypeArgs outerMethodArgs
        = .ok (p.argument typeArgs' methodArgs') := by
  have hplace : ∀ {as as' : List TypeSig} {i : Nat},
      List.Forall₂ (fun a a' => a.instantiate outerTypeArgs outerMethodArgs = .ok a') as as' →
      i < as.length → i < as'.length
        ∧ (as[i]?.getD (.prim .void)).instantiate outerTypeArgs outerMethodArgs
          = .ok (as'[i]?.getD (.prim .void)) := by
    intro as as' i h hi
    have hi' : i < as'.length := h.length_eq ▸ hi
    rw [List.getElem?_eq_getElem hi, List.getElem?_eq_getElem hi', Option.getD_some,
      Option.getD_some]
    exact ⟨hi', (List.forall₂_iff_get.mp h).2 i hi hi'⟩
  cases p with
  | ofType i => exact hplace htypes hgiven
  | ofMethod i => exact hplace hmethods hgiven

/-- **Instantiation composes**: instantiating the result is instantiating the type with
instantiated arguments. -/
theorem instantiate_instantiate
    (htypes : List.Forall₂ (fun a a' => a.instantiate outerTypeArgs outerMethodArgs = .ok a')
      typeArgs typeArgs')
    (hmethods : List.Forall₂ (fun a a' => a.instantiate outerTypeArgs outerMethodArgs = .ok a')
      methodArgs methodArgs')
    (h : t.instantiate typeArgs methodArgs = .ok r) :
    ∃ u, r.instantiate outerTypeArgs outerMethodArgs = .ok u
      ∧ t.instantiate typeArgs' methodArgs' = .ok u := by
  obtain ⟨hgiven, rfl⟩ := instantiate_eq_ok_iff.mp h
  have harg := fun p hp => exists_argument_of_forall₂ htypes hmethods (hgiven p hp)
  refine ⟨_, instantiate_eq_ok_iff.mpr ⟨?_, rfl⟩, instantiate_eq_ok_iff.mpr ⟨?_, ?_⟩⟩
  · -- What is open in the result is open in an argument that could be instantiated.
    intro q hq
    rw [openParams_substitute, List.mem_flatMap] at hq
    obtain ⟨p, hp, hq⟩ := hq
    exact (instantiate_eq_ok_iff.mp (harg p hp).2).1 q hq
  · exact fun p hp => (harg p hp).1
  · rw [substitute_substitute]
    exact substitute_congr t fun p hp => (instantiate_eq_ok_iff.mp (harg p hp).2).2.symm

end Instantiate

/-- **Instantiation is a substitution.** It gives a type exactly if there is an argument for every
generic parameter outside function pointers, and that type has the arguments in their place;
otherwise it fails with the fault of a parameter that is missing. A type without such parameters is
returned as it is. To instantiate the result again is to instantiate the type with arguments that
were instantiated themselves. -/
theorem instantiate_is_substitution (typeArgs methodArgs : List TypeSig) (t : TypeSig) :
    ((∃ r, t.instantiate typeArgs methodArgs = .ok r)
        ↔ (∀ i, .ofType i ∈ t.openParams → i < typeArgs.length)
          ∧ ∀ i, .ofMethod i ∈ t.openParams → i < methodArgs.length)
      ∧ (∀ r, t.instantiate typeArgs methodArgs = .ok r →
          r = t.substitute (GenericParam.argument typeArgs methodArgs))
      ∧ (∀ f, t.instantiate typeArgs methodArgs = .error f →
          (∃ p ∈ t.openParams, ¬ p.Given typeArgs methodArgs ∧ f = p.missing typeArgs methodArgs)
            ∧ f.kind? = some .invalidInput ∧ f.cause? = some .missingInstantiation)
      ∧ (t.openParams = [] → t.instantiate typeArgs methodArgs = .ok t)
      ∧ ∀ (outerTypeArgs outerMethodArgs typeArgs' methodArgs' : List TypeSig) (r : TypeSig),
          typeArgs.mapM (instantiate outerTypeArgs outerMethodArgs) = .ok typeArgs' →
          methodArgs.mapM (instantiate outerTypeArgs outerMethodArgs) = .ok methodArgs' →
          t.instantiate typeArgs methodArgs = .ok r →
          ∃ u, r.instantiate outerTypeArgs outerMethodArgs = .ok u
            ∧ t.instantiate typeArgs' methodArgs' = .ok u := by
  refine ⟨?_, fun r h => (instantiate_eq_ok_iff.mp h).2.symm, fun f h => ?_, fun h => ?_, ?_⟩
  · constructor
    · rintro ⟨r, h⟩
      have hgiven := (instantiate_eq_ok_iff.mp h).1
      exact ⟨fun i hi => hgiven _ hi, fun i hi => hgiven _ hi⟩
    · rintro ⟨htypes, hmethods⟩
      refine ⟨_, instantiate_eq_ok_iff.mpr ⟨fun p hp => ?_, rfl⟩⟩
      cases p with
      | ofType i => exact htypes i hp
      | ofMethod i => exact hmethods i hp
  · rw [instantiate_eq] at h
    obtain ⟨p, hp, hmissing, rfl⟩ := orMissing_eq_error h
    refine ⟨⟨p, hp, hmissing, rfl⟩, ?_⟩
    cases p with
    | ofType i | ofMethod i => exact ⟨rfl, rfl⟩
  · refine instantiate_eq_ok_iff.mpr ⟨?_, substitute_of_closed t h⟩
    rw [h]
    exact List.forall_mem_nil _
  · intro outerTypeArgs outerMethodArgs typeArgs' methodArgs' r htypes hmethods h
    exact instantiate_instantiate (Except.mapM_ok htypes) (Except.mapM_ok hmethods) h

/-- A generic type of which one argument is a parameter of the type, one an array of a parameter of
the method, and one a pointer to a function that takes a parameter of the type. -/
def nestedParams : TypeSig :=
  .byRef (.inst (Token.make .typeRef 1) false [.typeVar 0,
    .modified true (Token.make .typeRef 2) (.szArray (.methodVar 0)),
    .fnPtr ⟨false, false, 0, false, none, 1⟩ (.prim .void) [.typeVar 7] none true [0x13, 7]])

/-- Instantiated in two ways, with a parameter of the type for both of its parameters first, or at
once. The parameter of the function is left alone, though no argument stands for it. -/
theorem instantiate_is_substitution_nestedParams : ∃ r u : TypeSig,
    nestedParams.instantiate [.typeVar 1] [.pointer (.typeVar 0)] = .ok r
      ∧ r.instantiate [.prim .i4, .prim .string] [] = .ok u
      ∧ nestedParams.instantiate [.prim .string] [.pointer (.prim .i4)] = .ok u
      ∧ ∃ f, nestedParams.instantiate [.prim .string] [] = .error f
        ∧ f.cause? = some .missingInstantiation := by
  obtain ⟨hdefined, -, -, -, hcomposes⟩ :=
    instantiate_is_substitution [.typeVar 1] [.pointer (.typeVar 0)] nestedParams
  have hopen : nestedParams.openParams = [.ofType 0, .ofMethod 0] := rfl
  obtain ⟨r, hr⟩ := hdefined.mpr (by rw [hopen]; constructor <;> simp)
  obtain ⟨u, hu, hu'⟩ := hcomposes [.prim .i4, .prim .string] [] [.prim .string]
    [.pointer (.prim .i4)] r rfl rfl hr
  obtain ⟨hdefined', -, hfault, -⟩ := instantiate_is_substitution [.prim .string] [] nestedParams
  refine ⟨r, u, hr, hu, hu', ?_⟩
  cases hmissing : nestedParams.instantiate [.prim .string] [] with
  | error f => exact ⟨f, rfl, (hfault f hmissing).2.2⟩
  | ok s =>
    have hmethod := (hdefined'.mp ⟨s, hmissing⟩).2 0 (by rw [hopen]; decide)
    exact absurd hmethod (Nat.not_lt_zero 0)

end TypeSig

end ManagedImage
