/-
Parameters and their sentinel.

A parameter list is read by its count, and a sentinel may stand in front of one
parameter. `paramStart` is what happens before a parameter: a look for the
sentinel, and a second one behind it. No type starts with that byte, so the look
is decided by the first byte of the next piece.
-/
import ManagedImage.Proofs.Signature.Reads

set_option autoImplicit false

namespace ManagedImage.Decode

/-! ## In front of a parameter -/

/-- Passing over a sentinel, and making sure that there is not another one behind it. -/
def paramStart (scan : ParamScan) (d : Decoder) : Except Fault Unit × ParamScan × Decoder :=
  match passSentinel scan d with
  | (.error f, scan, d) => (.error f, scan, d)
  | (.ok (), scan', d') =>
    if scan'.sentinel == scan.sentinel then (.ok (), scan', d') else passSentinel scan' d'

theorem params_succ (inner : Decode TypeSig) (n : Nat) (scan : ParamScan) (d : Decoder) :
    params inner (n + 1) scan d = match paramStart scan d with
      | (.error f, scan, d) => (.error f, scan, d)
      | (.ok (), scan, d) => match inner d with
        | .error f d => (.error f, scan, d)
        | .ok t d => params inner n { scan with types := scan.types ++ [t] } d := by
  rw [params, paramStart]
  rcases passSentinel scan d with ⟨_ | _, scan', d'⟩
  · rfl
  · rfl

/-- A list that could be read has its first parameter read, and the others behind it. -/
theorem params_succ_ok {inner : Decode TypeSig} {n : Nat} {scan scan' : ParamScan} {d d' : Decoder}
    (h : params inner (n + 1) scan d = (.ok (), scan', d')) :
    ∃ scan₁ d₁ t d₂, paramStart scan d = (.ok (), scan₁, d₁) ∧ inner d₁ = .ok t d₂
      ∧ params inner n { scan₁ with types := scan₁.types ++ [t] } d₂ = (.ok (), scan', d') := by
  rw [params_succ] at h
  generalize hstart : paramStart scan d = start at h
  obtain ⟨f | ⟨⟩, scan₁, d₁⟩ := start
  · cases h
  · dsimp only at h
    cases hinner : inner d₁ with
    | error f e =>
      rw [hinner] at h
      cases h
    | ok t d₂ =>
      rw [hinner] at h
      exact ⟨scan₁, d₁, t, d₂, rfl, hinner, h⟩

/-- The piece starts with something else than a sentinel. -/
def Leads (piece : List UInt8) : Prop :=
  ∃ b rest, piece = b :: rest ∧ b.toNat ≠ Element.sentinel

theorem Leads.ne_nil {piece : List UInt8} (h : Leads piece) : piece ≠ [] := by
  rintro rfl
  obtain ⟨b, rest, hnil, -⟩ := h
  cases hnil

theorem Leads.append {piece : List UInt8} (h : Leads piece) (s : List UInt8) :
    Leads (piece ++ s) := by
  obtain ⟨b, rest, rfl, hb⟩ := h
  exact ⟨b, rest ++ s, rfl, hb⟩

theorem passSentinel_of_leads {scan : ParamScan} {d : Decoder} (h : Leads d.rest) :
    passSentinel scan d = (.ok (), scan, d) := by
  obtain ⟨b, rest, hrest, hb⟩ := h
  unfold passSentinel
  rw [hrest]
  exact if_pos hb

theorem paramStart_of_leads {scan : ParamScan} {d : Decoder} (h : Leads d.rest) :
    paramStart scan d = (.ok (), scan, d) := by
  unfold paramStart
  rw [passSentinel_of_leads h]
  exact if_pos (beq_self_eq_true scan.sentinel)

/-- The byte in front of the variable parameters. -/
def sentinelByte : UInt8 := UInt8.ofNat Element.sentinel

theorem passSentinel_sentinel {scan : ParamScan} (hnone : scan.sentinel = none) (offset : Nat)
    (s : List UInt8) : passSentinel scan ⟨offset, sentinelByte :: s⟩
      = (.ok (), { scan with sentinel := some scan.types.length }, ⟨offset + 1, s⟩) := by
  unfold passSentinel
  have hbyte : ¬ sentinelByte.toNat ≠ Element.sentinel := fun h => h rfl
  dsimp only
  rw [if_neg hbyte, hnone]
  rfl

theorem paramStart_sentinel {scan : ParamScan} (hnone : scan.sentinel = none) {s : List UInt8}
    (hs : Leads s) (offset : Nat) : paramStart scan ⟨offset, sentinelByte :: s⟩
      = (.ok (), { scan with sentinel := some scan.types.length }, ⟨offset + 1, s⟩) := by
  unfold paramStart
  rw [passSentinel_sentinel hnone, hnone]
  exact passSentinel_of_leads hs

/-- What was passed over in front of a parameter is nothing, or the first sentinel. -/
theorem paramStart_ok {scan scan' : ParamScan} {d d' : Decoder}
    (h : paramStart scan d = (.ok (), scan', d')) :
    Leads d'.rest ∧ ((scan' = scan ∧ d' = d) ∨ (scan.sentinel = none
      ∧ scan' = { scan with sentinel := some scan.types.length }
      ∧ d = ⟨d.offset, sentinelByte :: d'.rest⟩ ∧ d'.offset = d.offset + 1)) := by
  obtain ⟨offset, rest⟩ := d
  by_cases hleads : Leads rest
  · rw [paramStart_of_leads hleads] at h
    obtain ⟨rfl, rfl⟩ := Prod.mk.inj (Prod.mk.inj h).2
    exact ⟨hleads, Or.inl ⟨rfl, rfl⟩⟩
  · rcases rest with - | ⟨b, rest⟩
    · cases h
    · have hb : b = sentinelByte := by
        by_cases hne : b.toNat ≠ Element.sentinel
        · exact absurd ⟨b, rest, rfl, hne⟩ hleads
        · exact UInt8.toNat_inj.mp (not_not.mp hne)
      subst hb
      cases hscan : scan.sentinel with
      | some n =>
        have hbyte : ¬ sentinelByte.toNat ≠ Element.sentinel := fun h => h rfl
        unfold paramStart passSentinel at h
        simp only [if_neg hbyte, hscan] at h
        cases h
      | none =>
        unfold paramStart at h
        rw [passSentinel_sentinel hscan, hscan] at h
        change passSentinel _ _ = _ at h
        -- Behind the sentinel there is a piece, not another sentinel.
        have hnext : Leads rest := by
          rcases rest with - | ⟨c, rest⟩
          · cases h
          · by_cases hne : c.toNat ≠ Element.sentinel
            · exact ⟨c, rest, rfl, hne⟩
            · unfold passSentinel at h
              simp only [if_neg hne] at h
              cases h
        rw [passSentinel_of_leads hnext] at h
        obtain ⟨rfl, rfl⟩ := Prod.mk.inj (Prod.mk.inj h).2
        exact ⟨hnext, Or.inr ⟨rfl, rfl, rfl, rfl⟩⟩

/-! ## Reading a list -/

section Reading

variable {inner : Decode TypeSig} {pieces : List (List UInt8)} {ts : List TypeSig}

/-- **One parameter** that stands alone is read, and the others behind it. -/
theorem params_succ_of_leads {bs : List UInt8} {t : TypeSig} (hlead : Leads bs)
    (hread : Reads 0 inner bs t) (n : Nat) (scan : ParamScan) (offset : Nat) (rest : List UInt8) :
    params inner (n + 1) scan ⟨offset, bs ++ rest⟩
      = params inner n { scan with types := scan.types ++ [t] } ⟨offset + bs.length, rest⟩ := by
  rw [params_succ, paramStart_of_leads (hlead.append rest)]
  dsimp only
  rw [hread offset rest (Nat.zero_le _)]

/-- The first sentinel is passed over, and its place is kept. -/
theorem params_succ_of_sentinel {bs : List UInt8} {t : TypeSig} (hlead : Leads bs)
    (hread : Reads 0 inner bs t) (n : Nat) {scan : ParamScan} (hnone : scan.sentinel = none)
    (offset : Nat) (rest : List UInt8) :
    params inner (n + 1) scan ⟨offset, sentinelByte :: (bs ++ rest)⟩
      = params inner n ⟨scan.types ++ [t], some scan.types.length⟩
          ⟨offset + 1 + bs.length, rest⟩ := by
  rw [params_succ, paramStart_sentinel hnone (hlead.append rest)]
  dsimp only
  rw [hread (offset + 1) rest (Nat.zero_le _)]

/-- Parameters without a sentinel among them are read behind those read before. -/
theorem params_flatten (h : List.Forall₂ (Reads 0 inner) pieces ts) :
    (∀ c ∈ pieces, Leads c) → ∀ (scan : ParamScan) (offset : Nat) (s : List UInt8),
      params inner ts.length scan ⟨offset, pieces.flatten ++ s⟩
        = (.ok (), { scan with types := scan.types ++ ts }, ⟨offset + pieces.flatten.length, s⟩) := by
  induction h with
  | nil =>
    intro _ scan offset s
    rw [List.append_nil]
    rfl
  | @cons c t pieces ts hfirst _ ih =>
    intro hlead scan offset s
    have hc := hlead c List.mem_cons_self
    have hrest := ih (fun d hd => hlead d (List.mem_cons_of_mem c hd))
      { scan with types := scan.types ++ [t] } (offset + c.length) s
    rw [List.length_cons, List.flatten_cons, List.append_assoc, params_succ_of_leads hc hfirst,
      hrest, List.append_assoc, List.length_append, Nat.add_assoc]
    rfl

/-- **Parameters are read back, and the sentinel is found at its place.** -/
theorem params_paramBytes {sentinel : Option Nat} (h : List.Forall₂ (Reads 0 inner) pieces ts)
    (hlead : ∀ c ∈ pieces, Leads c) (hin : ∀ n, sentinel = some n → n < ts.length)
    (scan : ParamScan) (hnone : scan.sentinel = none) (offset : Nat) (s : List UInt8) :
    params inner ts.length scan ⟨offset, paramBytes sentinel pieces ++ s⟩
      = (.ok (), ⟨scan.types ++ ts, sentinel.map (scan.types.length + ·)⟩,
          ⟨offset + (paramBytes sentinel pieces).length, s⟩) := by
  cases sentinel with
  | none =>
    rw [paramBytes, params_flatten h hlead, hnone]
    rfl
  | some n =>
    -- The induction is on the parameters in front of the sentinel.
    have hn := hin n rfl
    clear hin
    induction n generalizing pieces ts scan offset with
    | zero =>
      rcases h with - | ⟨hfirst, hrest⟩
      · cases hn
      · rename_i c t pieces ts
        have hc := hlead c List.mem_cons_self
        simp only [paramBytes, List.take_zero, List.flatten_nil, List.nil_append, List.drop_zero,
          List.flatten_cons, List.cons_append, List.append_assoc]
        rw [List.length_cons, ← sentinelByte, params_succ_of_sentinel hc hfirst _ hnone,
          params_flatten hrest fun d hd => hlead d (List.mem_cons_of_mem c hd)]
        simp only [List.append_assoc, List.singleton_append, Option.map_some, List.length_cons,
          List.length_append, Nat.add_zero]
        congr 3
        omega
    | succ n ih =>
      rcases h with - | ⟨hfirst, hrest⟩
      · cases hn
      · rename_i c t pieces ts
        have hc := hlead c List.mem_cons_self
        have hn' : n < ts.length := Nat.lt_of_succ_lt_succ hn
        have htail := ih hrest (fun d hd => hlead d (List.mem_cons_of_mem c hd))
          { scan with types := scan.types ++ [t] } hnone (offset + c.length) hn'
        simp only [paramBytes, List.take_succ_cons, List.flatten_cons, List.drop_succ_cons,
          List.append_assoc] at htail ⊢
        rw [List.length_cons, params_succ_of_leads hc hfirst, htail]
        simp only [List.singleton_append, Option.map_some, List.length_cons, List.length_append,
          List.length_nil]
        rw [Nat.add_assoc scan.types.length, Nat.zero_add, Nat.add_comm 1 n, Nat.add_assoc offset]

theorem length_le_paramBytes (sentinel : Option Nat) (hlead : ∀ c ∈ pieces, Leads c) :
    pieces.length ≤ (paramBytes sentinel pieces).length := by
  -- The sentinel only adds a byte.
  have hle := length_le_flatten fun c hc => (hlead c hc).ne_nil
  cases sentinel with
  | none => exact hle
  | some n =>
    have hsplit : pieces.flatten.length
        = (pieces.take n).flatten.length + (pieces.drop n).flatten.length := by
      rw [← List.length_append, ← List.flatten_append, List.take_append_drop]
    rw [paramBytes, List.length_append, List.length_cons]
    omega

end Reading

/-- Reading all parameters as a step, with the bytes they were read from. -/
def paramStep (inner : Decode TypeSig) (n : Nat) : Decode (ParamScan × List UInt8) := fun d =>
  match params inner n .none d with
  | (.error f, _, d') => .error f d'
  | (.ok (), scan, d') => .ok (scan, d.rest.take (d'.offset - d.offset)) d'

theorem reads_paramStep {inner : Decode TypeSig} {pieces : List (List UInt8)} {ts : List TypeSig}
    {sentinel : Option Nat} (h : List.Forall₂ (Reads 0 inner) pieces ts)
    (hlead : ∀ c ∈ pieces, Leads c) (hin : ∀ n, sentinel = some n → n < ts.length) :
    Reads 0 (paramStep inner ts.length) (paramBytes sentinel pieces)
      (⟨ts, sentinel⟩, paramBytes sentinel pieces) := by
  intro offset s _
  unfold paramStep
  rw [params_paramBytes h hlead hin .none rfl]
  dsimp only
  rw [Nat.add_sub_cancel_left, List.take_left]
  cases sentinel with
  | none => rfl
  | some n =>
    rw [Option.map_some]
    simp only [ParamScan.none, List.nil_append, List.length_nil, Nat.zero_add]

end ManagedImage.Decode
