/-
Types are read from their own bytes.

The count in front of arguments, sizes or parameters is compared with all the bytes
that are left, and the number of levels a type may nest depends on where it stands.
Neither matters for a type that could be read: it is read again from the bytes it
took, whatever follows them (`TypeSig.repeats_typeWithin`). A function pointer keeps
the bytes of its parameters, and so it gives them again when it is asked, all of them
and with the sentinel where it was, although a new decoder starts on a shorter blob
and from the top.
-/
import ManagedImage.Proofs.Signature.Types
import ManagedImage.Proofs.Signature.Spelling

set_option autoImplicit false

namespace ManagedImage

/-! ## Parameters that were all read -/

/-- A list that could be read has as many types as were asked for, and a sentinel stands in front of
one of them. -/
theorem Decode.params_ok {inner : Decode TypeSig} (n : Nat) : ∀ {scan scan' : ParamScan}
    {d d' : Decoder}, Decode.params inner n scan d = (.ok (), scan', d') →
      (∀ k, scan.sentinel = some k → k < scan.types.length) →
      scan'.types.length = scan.types.length + n
        ∧ ∀ k, scan'.sentinel = some k → k < scan'.types.length := by
  induction n with
  | zero =>
    intro scan scan' d d' hrun hbefore
    obtain ⟨rfl, rfl⟩ := Prod.mk.inj (Prod.mk.inj hrun).2
    exact ⟨rfl, hbefore⟩
  | succ n ih =>
    intro scan scan' d d' hrun hbefore
    obtain ⟨scan₁, d₁, t, d₂, hstart, -, hrest⟩ := params_succ_ok hrun
    -- What was passed over in front of the parameter has left the types as they were.
    have hscan : scan₁.types = scan.types
        ∧ ∀ k, scan₁.sentinel = some k → k ≤ scan.types.length := by
      rcases (paramStart_ok hstart).2 with ⟨rfl, -⟩ | ⟨-, rfl, -⟩
      · exact ⟨rfl, fun k hk => Nat.le_of_lt (hbefore k hk)⟩
      · exact ⟨rfl, fun k hk => Nat.le_of_eq (Option.some.inj hk).symm⟩
    obtain ⟨hlength, hsentinel⟩ := ih hrest fun k hk => by
      rw [List.length_append, hscan.1, List.length_singleton]
      exact Nat.lt_succ_of_le (hscan.2 k hk)
    refine ⟨?_, hsentinel⟩
    rw [hlength, List.length_append, hscan.1, List.length_singleton]
    omega

/-- How an entry of a parameter list is spelled. -/
def ParamEntry.spelled (name : Token → Text) : ParamEntry → Text
  | .type t => t.render name
  | .sentinel => "..."

namespace TypeSig

theorem renderAll_eq (name : Token → Text) (ts : List TypeSig) :
    renderAll name ts = ts.map (render name) := by
  induction ts with
  | nil => rfl
  | cons t rest ih => rw [renderAll, ih, List.map_cons]

/-- A list without a fault is spelled entry by entry. -/
theorem paramTexts_renderAll (name : Token → Text) (ts : List TypeSig) (sentinel : Option Nat) :
    paramTexts (renderAll name ts) sentinel true
      = (ParamList.entries ⟨ts, sentinel, none⟩).map (ParamEntry.spelled name) := by
  have hmap : ∀ us : List TypeSig,
      (us.map ParamEntry.type).map (ParamEntry.spelled name) = us.map (render name) :=
    fun us => List.map_map
  rw [renderAll_eq]
  cases sentinel with
  | none =>
    rw [paramTexts, if_pos rfl, List.append_nil]
    exact (hmap ts).symm
  | some n =>
    rw [paramTexts, if_pos rfl, List.append_nil]
    simp only [ParamList.entries, List.map_append, hmap, List.map_take, List.map_drop]
    rfl

/-- A function pointer whose signature gives the parameters at the node when they are asked for: as
many as it counts, with the sentinel in front of one of them if there is one, and nothing wrong with
any. Under every label the signature is spelled with one text for each entry, and so is the type. -/
def GivesParams (_ : Bool) : TypeSig → Prop
  | .fnPtr head ret params sentinel complete bytes =>
    let sig : MethodSig := ⟨head, ret, bytes⟩
    sig.params = ⟨params, sentinel, none⟩ ∧ sig.paramTypes = .ok params
      ∧ params.length = head.paramCount ∧ (∀ n, sentinel = some n → n < params.length)
      ∧ ∀ name : Token → Text,
          (∀ label : Text, sig.render name label = head.render (ret.render name) label
            ((ParamList.entries ⟨params, sentinel, none⟩).map (ParamEntry.spelled name)))
          ∧ (TypeSig.fnPtr head ret params sentinel complete bytes).render name
            = "method " ++ sig.render name "*"
  | _ => True

/-- What is read again without a fault is all there is. -/
theorem Rereadable.givesParams {v : Bool} {t : TypeSig} (h : t.Rereadable v) : t.GivesParams v := by
  cases t with
  | fnPtr head ret params sentinel complete bytes =>
    obtain ⟨rfl, hparams⟩ := h
    have hcount : params.length = head.paramCount
        ∧ ∀ n, sentinel = some n → n < params.length := by
      unfold MethodSig.params at hparams
      generalize hrun : Decode.params (Decode.type false) head.paramCount .none (Decoder.start bytes)
        = result at hparams
      obtain ⟨f | ⟨⟩, scan, d⟩ := result
      · cases hparams
      · obtain ⟨rfl, rfl, -⟩ := ParamList.mk.inj hparams
        obtain ⟨hlength, hsentinel⟩ := Decode.params_ok _ hrun fun k hk => by cases hk
        exact ⟨hlength.trans (Nat.zero_add _), hsentinel⟩
    refine ⟨hparams, ?_, hcount.1, hcount.2, fun name => ⟨fun label => ?_, ?_⟩⟩
    · unfold MethodSig.paramTypes
      rw [hparams]
    · unfold MethodSig.render
      rw [hparams]
      exact congrArg (head.render (ret.render name) label) (paramTexts_renderAll name params sentinel)
    · rw [render]
      unfold MethodSig.render
      rw [hparams]
      rfl
  | _ => trivial

theorem Rereadable.complete {v : Bool} {t : TypeSig} (h : t.Rereadable v) : t.Complete v := by
  cases t with
  | fnPtr head ret params sentinel complete bytes => exact h.1
  | _ => trivial

end TypeSig

/-! ## All types -/

/-- **Types are read from their own bytes.** A type that is read takes some bytes, and it is read
from these bytes alone, wherever they stand and whatever follows. Every function pointer in it gives
the parameters that were read with it when they are read again, and no part of it is spelled as one
that could not be read. -/
theorem types_read_own_bytes {v : Bool} {d d' : Decoder} {t : TypeSig}
    (h : Decode.type v d = .ok t d') :
    ∃ n, n ≤ d.remaining ∧ d' = d.advance n
      ∧ (∀ (offset : Nat) (s : List UInt8),
          Decode.type v ⟨offset, d.rest.take n ++ s⟩ = .ok t ⟨offset + n, s⟩)
      ∧ t.Everywhere TypeSig.GivesParams v ∧ t.text.contains "<invalid>" = false := by
  obtain ⟨⟨-, hdecoded⟩, bs, hbs⟩ := TypeSig.repeats_typeWithin Decode.maxLevels Decode.maxLevels v
    (Nat.le_refl _) (Nat.le_refl _) d t d' h
  have hre : t.Everywhere TypeSig.Rereadable v :=
    TypeSig.Everywhere.mono (fun _ _ hnode => hnode.2.2) t v hdecoded
  have htaken : d.rest.take bs.length = bs := by rw [hbs.rest, List.take_left]
  refine ⟨bs.length, ?_, ?_, fun offset s => ?_, ?_, ?_⟩
  · rw [Decoder.remaining, hbs.rest, List.length_append]
    exact Nat.le_add_right _ _
  · rw [Decoder.advance, hbs.rest, List.drop_left, ← hbs.offset]
  · rw [htaken]
    exact hbs.reads offset s (Nat.zero_le _)
  · exact TypeSig.Everywhere.mono (fun _ _ hnode => hnode.givesParams) t v hre
  · refine Text.Unmarked.not_contains (TypeSig.unmarked_render Token.unmarked_render t v ?_)
    exact TypeSig.Everywhere.mono (fun _ _ hnode => hnode.complete) t v hre

/-- The pointer of `varargPointer`, read with a byte behind it, is read again with two others there.
Read on their own its last four bytes are its parameters. -/
theorem types_read_own_bytes_varargPointer :
    ∃ t, Decode.type false ⟨0, [0x1B, 0x05, 0x02, 0x0F, 0x01, 0x08, 0x41, 0x1D, 0x0E, 0xFF]⟩
          = .ok t ⟨9, [0xFF]⟩
      ∧ Decode.type false ⟨0, [0x1B, 0x05, 0x02, 0x0F, 0x01, 0x08, 0x41, 0x1D, 0x0E, 0x01, 0x02]⟩
          = .ok t ⟨9, [0x01, 0x02]⟩
      ∧ t.Everywhere TypeSig.GivesParams false ∧ t.text.contains "<invalid>" = false := by
  have hrun : Decode.type false
      ⟨0, [0x1B, 0x05, 0x02, 0x0F, 0x01, 0x08, 0x41, 0x1D, 0x0E, 0xFF]⟩
        = .ok (.fnPtr ⟨false, false, 5, false, none, 2⟩ (.pointer (.prim .void))
          [.prim .i4, .szArray (.prim .string)] (some 1) true [0x08, 0x41, 0x1D, 0x0E])
          ⟨9, [0xFF]⟩ := rfl
  obtain ⟨n, -, hadvance, hreads, hgives, hspelled⟩ := types_read_own_bytes hrun
  obtain rfl : n = 9 := ((congrArg Decoder.offset hadvance).trans (Nat.zero_add n)).symm
  exact ⟨_, hrun, hreads 0 [0x01, 0x02], hgives, hspelled⟩

end ManagedImage
