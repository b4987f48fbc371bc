/-
The assembler and the reader agree on method bodies.

A body stands in the one section behind the runtime header, at an offset that is a multiple
of four; its address is that of the section plus the offset. The address resolves to the
bytes from the body to the end of the file, and what follows the body does not matter to
the reader, so bodies added later do not either.
-/
import ManagedImage.Proofs.Assemble.HeapAgreement
import ManagedImage.Proofs.Code.Bodies

set_option autoImplicit false

namespace ManagedImage.Assemble

open Builder (sectionAddress bodiesOffset OneSection)
open Body (SectionFits laidFat)

/-! ## From the address to the bytes -/

/-- The file has the method bodies behind headers and runtime header. -/
theorem Builder.holds_bodies (b : Builder) :
    (Region.whole b.bytes).Holds (0x200 + bodiesOffset) b.bodies.data.toList := by
  have h := b.holds_bytes.2
  rw [sectionData_eq] at h
  have hbodies := h.left.right
  simp only [List.length_append, length_runtimeHeader, length_zeroBytes] at hbodies
  exact hbodies.left

theorem Builder.size_bodies_le (b : Builder) :
    bodiesOffset + b.bodies.size ≤ b.sectionData.length := by
  have hlen := b.length_sectionData
  have hpad := length_le_padTo 4 b.bodies.data.toList
  have hsize : b.bodies.data.toList.length = b.bodies.size := Array.length_toList
  rw [hlen, rootOffset, paddedBodies]
  omega

/-- The region from the address of a body on starts with the body. -/
theorem regionFrom_stored {b : Builder} {f : Portable.File} (hf : OneSection b f) {i : Nat}
    {x : List UInt8} (hne : x ≠ []) (h : Stored b.bodies i x) :
    ∃ g : Region, f.regionFrom (sectionAddress + bodiesOffset + i) = .ok g ∧ g.Holds 0 x := by
  obtain ⟨s, hsections, hvs, hva, hraw⟩ := hf.sections
  have hin := h.size_le hne
  have hpos := List.length_pos_iff.mpr hne
  have hbodies := b.size_bodies_le
  have hresolve : f.resolve (sectionAddress + bodiesOffset + i)
      = .ok (0x200 + (bodiesOffset + i)) := by
    rw [Portable.File.resolve, hsections, Nat.add_assoc]
    exact Builder.resolveIn_section hvs hva hraw (by omega)
  have hheld := h.holds_from hne b.holds_bodies
  rw [Nat.add_assoc] at hheld
  obtain ⟨g, hg, hholds⟩ := hheld.startingAt
  refine ⟨g, ?_, hholds⟩
  simp only [Portable.File.regionFrom, bind, Except.bind, hresolve, hf.region, hg]

/-- A body of a journal is read from a region that starts with it, at an aligned address. -/
theorem bodyAt_stored {b : Builder} {img : Image} {js : List (Store × Nat)} (h : Holdings b js)
    (hf : OneSection b img.file) {x : List UInt8} {rva : Nat} (hmem : (.body x, rva) ∈ js)
    (hne : x ≠ []) : ∃ g : Region, img.bodyAt rva = Body.read g rva ∧ g.Holds 0 x ∧ rva % 4 = 0
      ∧ x.length ≤ b.bytes.size := by
  obtain ⟨i, hrva, hi, hstored⟩ : ∃ i, rva = sectionAddress + bodiesOffset + i ∧ i % 4 = 0
      ∧ Stored b.bodies i x := h.bodies (rva, x) (mem_calls hmem rfl)
  have hin := hstored.size_le hne
  have hbodies := b.size_bodies_le
  have hfile := b.length_sectionData_le
  obtain ⟨g, hg, hheld⟩ := regionFrom_stored hf hne hstored
  refine ⟨g, ?_, hheld, ?_, by omega⟩
  · rw [Image.bodyAt, hrva, hg]
  · rw [hrva, sectionAddress, bodiesOffset]
    omega

/-! ## The agreement -/

/-- What is read at the addresses of the bodies of a journal. -/
structure BodiesAgree (js : List (Store × Nat)) (img : Image) : Prop where
  /-- A tiny body has its code, the usual stack and nothing else. -/
  tiny : ∀ (code x : List UInt8) (rva : Nat), (.body x, rva) ∈ js → tinyBody code = .ok x →
    ∃ body : Body, img.bodyAt rva = .ok body ∧ body.code = code ∧ body.maxStack = 8
      ∧ body.localsToken = Token.null ∧ body.initLocals = false ∧ body.clauses = []
  /-- A fat body has what its header says, its code, and the clauses of all its sections in
  order. -/
  fat : ∀ (maxStack locals rva : Nat) (initLocals : Bool) (code : List UInt8)
    (sections : List (Bool × List RawClause)),
    (.body (laidFat maxStack locals initLocals code sections), rva) ∈ js →
    maxStack < 0x10000 → locals < 0x100000000 → (∀ p ∈ sections, SectionFits p.1 p.2) →
    ∃ body : Body, img.bodyAt rva = .ok body ∧ body.maxStack = maxStack
      ∧ body.localsToken = Token.ofNat locals ∧ body.initLocals = initLocals ∧ body.code = code
      ∧ body.clauses = (sections.flatMap (·.2)).map RawClause.clause
  /-- So has one that the assembler lays out itself, with the section of its clauses, if any. -/
  written : ∀ (maxStack locals rva : Nat) (initLocals : Bool) (code : List UInt8)
    (clauses : List RawClause) (wide : Bool),
    (.body (fatBody maxStack locals initLocals code clauses wide), rva) ∈ js →
    maxStack < 0x10000 → locals < 0x100000000 → (clauses ≠ [] → SectionFits wide clauses) →
    ∃ body : Body, img.bodyAt rva = .ok body ∧ body.maxStack = maxStack
      ∧ body.localsToken = Token.ofNat locals ∧ body.initLocals = initLocals ∧ body.code = code
      ∧ body.clauses = clauses.map RawClause.clause

theorem length_laidFat_ge (maxStack locals : Nat) (initLocals : Bool) (code : List UInt8)
    (sections : List (Bool × List RawClause)) :
    12 + code.length ≤ (laidFat maxStack locals initLocals code sections).length := by
  have hlen : ∀ more, (fatHeader maxStack locals initLocals more code.length ++ code).length
      = 12 + code.length := by
    intro more
    rw [List.length_append, Body.length_fatHeader]
  rw [laidFat]
  split
  · rw [hlen]
  · have hpad := length_le_padTo 4
      (fatHeader maxStack locals initLocals (!sections.isEmpty) code.length ++ code)
    rw [hlen] at hpad
    rw [List.length_append]
    omega

theorem bodyAt_laidFat {b : Builder} {img : Image} {js : List (Store × Nat)}
    (h : Holdings b js) (hsize : b.bytes.size < 0x20000000) (hf : OneSection b img.file)
    {maxStack locals rva : Nat} {initLocals : Bool} {code : List UInt8}
    {sections : List (Bool × List RawClause)}
    (hmem : (.body (laidFat maxStack locals initLocals code sections), rva) ∈ js)
    (hstack : maxStack < 0x10000) (hlocals : locals < 0x100000000)
    (hfits : ∀ p ∈ sections, SectionFits p.1 p.2) :
    ∃ body : Body, img.bodyAt rva = .ok body ∧ body.maxStack = maxStack
      ∧ body.localsToken = Token.ofNat locals ∧ body.initLocals = initLocals ∧ body.code = code
      ∧ body.clauses = (sections.flatMap (·.2)).map RawClause.clause := by
  have hlen := length_laidFat_ge maxStack locals initLocals code sections
  have hne : laidFat maxStack locals initLocals code sections ≠ [] :=
    List.ne_nil_of_length_pos (by omega)
  obtain ⟨g, hat, hheld, hrva, hle⟩ := bodyAt_stored h hf hmem hne
  -- The code is a part of the file, so its length fits the header.
  have hcode : code.length < 0x100000000 := by omega
  have hread := Body.read_laidFat hrva hstack hlocals hcode hfits hheld
  exact ⟨_, hat.trans hread, rfl, rfl, rfl, rfl, rfl⟩

theorem bodiesAgree_of_holdings {b : Builder} {img : Image} {js : List (Store × Nat)}
    (h : Holdings b js) (hsize : b.bytes.size < 0x20000000) (hf : OneSection b img.file) :
    BodiesAgree js img := by
  refine ⟨?_, ?_, ?_⟩
  · intro code x rva hmem hx
    have hne : x ≠ [] := by
      rintro rfl
      rw [tinyBody] at hx
      split at hx <;> cases hx
    obtain ⟨g, hat, hheld, -, -⟩ := bodyAt_stored h hf hmem hne
    exact ⟨_, hat.trans (Body.read_tiny hx hheld), rfl, rfl, rfl, rfl, rfl⟩
  · intro maxStack locals rva initLocals code sections hmem hstack hlocals hfits
    exact bodyAt_laidFat h hsize hf hmem hstack hlocals hfits
  · intro maxStack locals rva initLocals code clauses wide hmem hstack hlocals hfits
    rw [Body.fatBody_eq_laidFat] at hmem
    -- Clauses make one section, and none make none.
    cases clauses with
    | nil =>
      have hnone : ∀ p ∈ ([] : List (Bool × List RawClause)), SectionFits p.1 p.2 := by simp
      exact bodyAt_laidFat h hsize hf hmem hstack hlocals hnone
    | cons c cs =>
      rw [List.isEmpty_cons, if_neg Bool.false_ne_true] at hmem
      have hone : ∀ p ∈ [(wide, c :: cs)], SectionFits p.1 p.2 := by
        intro p hp
        rw [List.mem_singleton.mp hp]
        exact hfits (List.cons_ne_nil c cs)
      obtain ⟨body, hbody⟩ := bodyAt_laidFat h hsize hf hmem hstack hlocals hone
      rw [List.flatMap_singleton] at hbody
      exact ⟨body, hbody⟩

/-- **Assembler and reader agree on bodies.** If some steps can be carried out and the file they
give is shorter than 2^29 bytes, it parses, and every body is read back at its address; a step
that stores a body gives that address. -/
theorem bodies_roundTrip {steps : List Step} {results : List Int} {b : Builder}
    (h : build steps = .ok (results, b)) (hsize : b.bytes.size < 0x20000000) :
    ∃ img : Image, Image.parse b.bytes = .ok img ∧ BodiesAgree (journal steps) img
      ∧ ∀ (k : Nat) (s : Step) (st : Store) (r : Int), steps[k]? = some s → s.request? = some st →
          results[k]? = some r → ∃ v : Nat, r = v ∧ (st, v) ∈ journal steps := by
  obtain ⟨-, hfit, hanswers⟩ := journal_of_build h
  obtain ⟨img, hparse, -, hfile⟩ := Builder.parse_rowsFit hfit hsize
  exact ⟨img, hparse, bodiesAgree_of_holdings (holdings_of_build h) hsize hfile, hanswers⟩

/-- A catch clause and a filter clause whose places need the wide fields. -/
def sampleSections : List (Bool × List RawClause) :=
  [(false, [⟨0, 0, 1, 1, 1, 0x01000002⟩]), (true, [⟨1, 0, 0x10000, 0x10000, 2, 7⟩])]

theorem sampleSections_fit : ∀ p ∈ sampleSections, SectionFits p.1 p.2 := by
  intro p hp
  simp only [sampleSections, List.mem_cons, List.not_mem_nil, or_false] at hp
  rcases hp with rfl | rfl
  · refine ⟨fun c hc => ?_, fun _ => ⟨by decide, fun c hc => ?_⟩, fun h => ?_⟩
    · rw [List.mem_singleton.mp hc]
      exact ⟨by decide, by decide, by decide, by decide, by decide, by decide⟩
    · rw [List.mem_singleton.mp hc]
      exact ⟨by decide, by decide, by decide, by decide⟩
    · cases h
  · refine ⟨fun c hc => ?_, fun h => ?_, fun _ => by decide⟩
    · rw [List.mem_singleton.mp hc]
      exact ⟨by decide, by decide, by decide, by decide, by decide, by decide⟩
    · cases h

/-- A tiny body, and behind it a fat one with both sections. -/
def bodySteps : List Step :=
  [.body [.tiny [0x2A]], .body [.raw (laidFat 3 0x11000001 true [0, 0x2A] sampleSections)]]

theorem bodies_roundTrip_bodySteps :
    ∃ (results : List Int) (b : Builder) (img : Image) (body : Body),
      build bodySteps = .ok (results, b) ∧ Image.parse b.bytes = .ok img
        ∧ img.bodyAt 0x2054 = .ok body ∧ body.maxStack = 3 ∧ body.code = [0, 0x2A]
        ∧ body.clauses.map (·.filterOffset) = [0, 7] := by
  obtain ⟨results, b, hbuild, hsize, -⟩ :=
    exists_build_of_short bodySteps (p := fun _ _ => True) (by decide +kernel)
  obtain ⟨img, hparse, hagree, -⟩ := bodies_roundTrip hbuild hsize
  obtain ⟨body, hat, hstack, -, -, hcode, hclauses⟩ :=
    hagree.fat 3 0x11000001 0x2054 true [0, 0x2A] sampleSections (by decide +kernel) (by decide)
      (by decide) sampleSections_fit
  refine ⟨results, b, img, body, hbuild, hparse, hat, hstack, hcode, ?_⟩
  rw [hclauses]
  rfl

end ManagedImage.Assemble
