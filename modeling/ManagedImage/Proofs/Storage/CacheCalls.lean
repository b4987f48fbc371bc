/-
What one call can do to a cache.

The surroundings are left open. At every call there is some way from paths to
keys and some way to load a key; both may fail, and neither need be what it was
at the call before. A loaded value is an object of its own, marked with the call
that loaded it (`Made`), so that "the same value" and "at most once" say
something about loads and not about contents.

The turns a call can take are listed once, in `Turn`: nothing happens, an entry is
used, one is put in front, one is taken out, or all are. What a run needs is read
off that list and nowhere else: the entries before and what was made are, in some
order, the entries after and what was given up (`Turn.perm`); and as there is room
for one entry at least, what was just made is not what leaves (`Turn.mem_evicted`).
-/
import ManagedImage.Storage.Cache
import Mathlib.Data.List.Nodup

set_option autoImplicit false

namespace ManagedImage.Storage

/-- A value as an object of its own. Two loads never give the same one. -/
structure Made (α : Type) where
  /-- The number of the call that loaded it. -/
  maker : Nat
  /-- What was loaded. -/
  value : α

/-- The effect with its answer put another way. -/
def Effect.answered {κ α ρ σ : Type} (e : Effect κ α ρ) (f : ρ → σ) : Effect κ α σ :=
  ⟨f e.answer, e.cache, e.loaded, e.evicted⟩

namespace Cache

/-! ## Calls -/

/-- A call on a cache. -/
inductive Call (ρ : Type) where
  | fetch (path : ρ)
  | get (path : ρ)
  | evict (path : ρ)
  | purge

/-- The answer to a call. -/
inductive Answer (ε α : Type) where
  | fetched (result : Except ε α)
  | got (value : Option α)
  | evicted (present : Bool)
  | purged

/-- A call with the surroundings it is made in. -/
structure Moment (ρ ε κ α : Type) where
  /-- The key of a path at that time. -/
  key : ρ → Except ε κ
  /-- What loading a key gives at that time. -/
  load : κ → Except ε α
  /-- The call. -/
  call : Call ρ

variable {ρ ε κ α : Type}

namespace Moment

/-- The key that was used: that of a path whose value was asked for and given. -/
def used (m : Moment ρ ε κ α) (answer : Answer ε (Made α)) : Option κ :=
  match m.call, answer with
  | .fetch path, .fetched (.ok _) => (m.key path).toOption
  | .get path, .got (some _) => (m.key path).toOption
  | _, _ => none

/-- The objects that the loads of a call have made, each with its key. -/
def made (m : Moment ρ ε κ α) (i : Nat) (loaded : List κ) : List (κ × Made α) :=
  loaded.filterMap fun k => (m.load k).toOption.map fun a => (k, ⟨i, a⟩)

/-- The call, the `i`th of its run. -/
def perform [DecidableEq κ] (m : Moment ρ ε κ α) (i : Nat) (c : Cache κ (Made α)) :
    Effect κ (Made α) (Answer ε (Made α)) :=
  match m.call with
  | .fetch path => (c.fetch m.key (fun k => (m.load k).map (Made.mk i)) path).answered .fetched
  | .get path => (c.get m.key path).answered .got
  | .evict path => (c.evict m.key path).answered .evicted
  | .purge => c.purge.answered fun _ => .purged

variable {m : Moment ρ ε κ α} {i : Nat} {path : ρ} {k : κ} {v : Made α}

theorem made_of_ok {a : α} (h : m.load k = .ok a) : m.made i [k] = [(k, ⟨i, a⟩)] := by
  simp only [made, h, Except.toOption, List.filterMap_cons, List.filterMap_nil, Option.map_some]

theorem made_of_error {f : ε} (h : m.load k = .error f) : m.made i [k] = [] := by
  simp only [made, h, Except.toOption, List.filterMap_cons, List.filterMap_nil, Option.map_none]

theorem used_fetch (h : m.call = .fetch path) (hkey : m.key path = .ok k) :
    m.used (.fetched (.ok v)) = some k := by
  simp only [used, h, hkey, Except.toOption]

theorem used_get (h : m.call = .get path) (hkey : m.key path = .ok k) :
    m.used (.got (some v)) = some k := by
  simp only [used, h, hkey, Except.toOption]

end Moment

/-! ## Keys and entries -/

/-- No key has two entries. -/
def Keyed (c : Cache κ α) : Prop := (c.entries.map Prod.fst).Nodup

theorem Keyed.eq {c : Cache κ α} (hc : c.Keyed) {k : κ} {v w : α} (hv : (k, v) ∈ c.entries)
    (hw : (k, w) ∈ c.entries) : v = w := by
  have hsame := List.inj_on_of_nodup_map hc hv hw rfl
  exact congrArg Prod.snd hsame

variable [DecidableEq κ]

section Entries

variable {c : Cache κ α} {k : κ} {v : α}

theorem mem_others {e : κ × α} : e ∈ c.others k ↔ e ∈ c.entries ∧ e.1 ≠ k := by
  rw [others, List.mem_filter, decide_eq_true_eq]

theorem find?_eq_none : c.find? k = none ↔ ∀ v, (k, v) ∉ c.entries := by
  rw [find?, List.lookup_eq_none_iff]
  constructor
  · intro h v hmem
    have hne := h _ hmem
    simp at hne
  · rintro h ⟨k', v⟩ hmem
    rw [bne_iff_ne]
    rintro rfl
    exact h v hmem

theorem mem_of_find? (h : c.find? k = some v) : (k, v) ∈ c.entries := by
  obtain ⟨before, after, hsplit, -⟩ := List.lookup_eq_some_iff.mp h
  rw [hsplit]
  simp

theorem Keyed.find?_eq_some (hc : c.Keyed) : c.find? k = some v ↔ (k, v) ∈ c.entries := by
  constructor
  · exact mem_of_find?
  · intro hv
    cases hfound : c.find? k with
    | none => exact absurd hv (find?_eq_none.mp hfound v)
    | some w => rw [hc.eq hv (mem_of_find? hfound)]

/-- An entry that is used is the same entry, only in front. -/
theorem Keyed.perm_others (hc : c.Keyed) (h : (k, v) ∈ c.entries) :
    c.entries.Perm ((k, v) :: c.others k) := by
  have hnodup : c.entries.Nodup := hc.of_map Prod.fst
  apply (List.perm_ext_iff_of_nodup hnodup _).mpr
  · rintro ⟨k', w⟩
    rw [List.mem_cons, mem_others]
    constructor
    · intro hmem
      by_cases hk : k' = k
      · subst hk
        exact Or.inl (by rw [hc.eq hmem h])
      · exact Or.inr ⟨hmem, hk⟩
    · rintro (hhead | ⟨hmem, -⟩)
      · rw [hhead]
        exact h
      · exact hmem
  · rw [List.nodup_cons, mem_others]
    exact ⟨fun hmem => hmem.2 rfl, hnodup.filter _⟩

theorem others_of_find?_eq_none (h : c.find? k = none) : c.others k = c.entries := by
  rw [others, List.filter_eq_self]
  rintro ⟨k', v⟩ hmem
  rw [decide_eq_true_eq]
  rintro rfl
  exact find?_eq_none.mp h v hmem

end Entries

/-! ## One call -/

section Outcomes

variable {β : Type} {c : Cache κ β} {key : ρ → Except ε κ} {load : κ → Except ε β} {path : ρ} {k : κ}
  {v : β} {f : ε}

theorem fetch_of_error (hkey : key path = .error f) :
    c.fetch key load path = settled (.error f) c := by
  rw [fetch, hkey]

theorem fetch_of_held (hkey : key path = .ok k) (hfind : c.find? k = some v) :
    c.fetch key load path = settled (.ok v) { c with entries := (k, v) :: c.others k } := by
  simp only [fetch, hkey, use?, hfind, Option.map_some]

theorem fetch_of_unloaded (hkey : key path = .ok k) (hfind : c.find? k = none)
    (hload : load k = .error f) : c.fetch key load path = ⟨.error f, c, [k], []⟩ := by
  simp only [fetch, hkey, use?, hfind, hload, Option.map_none]

theorem fetch_of_loaded (hkey : key path = .ok k) (hfind : c.find? k = none)
    (hload : load k = .ok v) :
    c.fetch key load path = ⟨.ok v, (c.insert k v).1, [k], (c.insert k v).2⟩ := by
  simp only [fetch, hkey, use?, hfind, hload, Option.map_none]

theorem get_of_error (hkey : key path = .error f) : c.get key path = settled none c := by
  rw [get, hkey]

theorem get_of_held (hkey : key path = .ok k) (hfind : c.find? k = some v) :
    c.get key path = settled (some v) { c with entries := (k, v) :: c.others k } := by
  simp only [get, hkey, use?, hfind, Option.map_some]

theorem get_of_none (hkey : key path = .ok k) (hfind : c.find? k = none) :
    c.get key path = settled none c := by
  simp only [get, hkey, use?, hfind, Option.map_none]

theorem evict_of_error (hkey : key path = .error f) : c.evict key path = settled false c := by
  rw [evict, hkey]

theorem evict_of_held (hkey : key path = .ok k) (hfind : c.find? k = some v) :
    c.evict key path = ⟨true, { c with entries := c.others k }, [], [(k, v)]⟩ := by
  simp only [evict, hkey, hfind]

theorem evict_of_none (hkey : key path = .ok k) (hfind : c.find? k = none) :
    c.evict key path = settled false c := by
  simp only [evict, hkey, hfind]

end Outcomes

/-- What a call can do: its answer, the key it uses, what it makes, what it gives up, and the cache
after it. -/
inductive Turn (i : Nat) (c : Cache κ (Made α)) :
    Answer ε (Made α) → Option κ → List (κ × Made α) → List (κ × Made α) → Cache κ (Made α) → Prop
  | rest (answer : Answer ε (Made α)) : Turn i c answer none [] [] c
  | use {answer : Answer ε (Made α)} {k : κ} {v : Made α} (h : (k, v) ∈ c.entries)
      (hanswer : answer = .fetched (.ok v) ∨ answer = .got (some v)) :
    Turn i c answer (some k) [] [] { c with entries := (k, v) :: c.others k }
  | make {k : κ} {v : Made α} (h : c.find? k = none) (hmaker : v.maker = i) :
    Turn i c (.fetched (.ok v)) (some k) [(k, v)] (c.insert k v).2 (c.insert k v).1
  | drop {k : κ} {v : Made α} (h : (k, v) ∈ c.entries) :
    Turn i c (.evicted true) none [] [(k, v)] { c with entries := c.others k }
  | clear : Turn i c .purged none [] c.entries { c with entries := [] }

section Calls

variable {m : Moment ρ ε κ α} {i : Nat} {c : Cache κ (Made α)} {path : ρ} {k : κ} {v : Made α}

theorem perform_fetch (h : m.call = .fetch path) : m.perform i c
    = (c.fetch m.key (fun k => (m.load k).map (Made.mk i)) path).answered .fetched := by
  rw [Moment.perform, h]

theorem perform_get (h : m.call = .get path) :
    m.perform i c = (c.get m.key path).answered .got := by
  rw [Moment.perform, h]

theorem perform_evict (h : m.call = .evict path) :
    m.perform i c = (c.evict m.key path).answered .evicted := by
  rw [Moment.perform, h]

theorem perform_purge (h : m.call = .purge) : m.perform i c = c.purge.answered fun _ => .purged := by
  rw [Moment.perform, h]

/-- **Every call takes one of the turns.** -/
theorem turn_perform (m : Moment ρ ε κ α) (i : Nat) (c : Cache κ (Made α)) :
    Turn i c (m.perform i c).answer (m.used (m.perform i c).answer)
      (m.made i (m.perform i c).loaded) (m.perform i c).evicted (m.perform i c).cache := by
  -- By the call, then by whether its path has a key, and whether that key is held.
  rcases m with ⟨key, load, path | path | path | -⟩
  · rw [perform_fetch rfl]
    cases hkey : key path with
    | error f =>
      rw [fetch_of_error hkey]
      exact Turn.rest _
    | ok k =>
      cases hfind : c.find? k with
      | some v =>
        rw [fetch_of_held hkey hfind, Effect.answered, settled, Moment.used_fetch rfl hkey]
        exact Turn.use (mem_of_find? hfind) (Or.inl rfl)
      | none =>
        cases hload : load k with
        | error f =>
          rw [fetch_of_unloaded hkey hfind (congrArg _ hload), Effect.answered,
            Moment.made_of_error hload]
          exact Turn.rest _
        | ok a =>
          rw [fetch_of_loaded hkey hfind (congrArg _ hload), Effect.answered, Moment.made_of_ok hload,
            Moment.used_fetch rfl hkey]
          exact Turn.make hfind rfl
  · rw [perform_get rfl]
    cases hkey : key path with
    | error f =>
      rw [get_of_error hkey]
      exact Turn.rest _
    | ok k =>
      cases hfind : c.find? k with
      | some v =>
        rw [get_of_held hkey hfind, Effect.answered, settled, Moment.used_get rfl hkey]
        exact Turn.use (mem_of_find? hfind) (Or.inr rfl)
      | none =>
        rw [get_of_none hkey hfind]
        exact Turn.rest _
  · rw [perform_evict rfl]
    cases hkey : key path with
    | error f =>
      rw [evict_of_error hkey]
      exact Turn.rest _
    | ok k =>
      cases hfind : c.find? k with
      | some v =>
        rw [evict_of_held hkey hfind]
        exact Turn.drop (mem_of_find? hfind)
      | none =>
        rw [evict_of_none hkey hfind]
        exact Turn.rest _
  · rw [perform_purge rfl]
    exact Turn.clear

/-- A fetch loads the key of its path if it is not held. -/
theorem loaded_fetch {β : Type} (c : Cache κ β) (key : ρ → Except ε κ) (load : κ → Except ε β)
    (path : ρ) : (c.fetch key load path).loaded.length ≤ 1 ∧ ∀ k,
      k ∈ (c.fetch key load path).loaded ↔ c.find? k = none ∧ key path = .ok k := by
  cases hkey : key path with
  | error f =>
    rw [fetch_of_error hkey]
    simp [settled]
  | ok k =>
    cases hfind : c.find? k with
    | some v =>
      rw [fetch_of_held hkey hfind]
      refine ⟨Nat.zero_le 1, fun k' => ⟨fun hmem => absurd hmem List.not_mem_nil, ?_⟩⟩
      rintro ⟨hnone, hsame⟩
      rw [← Except.ok.inj hsame, hfind] at hnone
      cases hnone
    | none =>
      have hload : (c.fetch key load path).loaded = [k] := by
        cases hload : load k with
        | error f => rw [fetch_of_unloaded hkey hfind hload]
        | ok v => rw [fetch_of_loaded hkey hfind hload]
      rw [hload]
      refine ⟨Nat.le_refl 1, fun k' => ?_⟩
      rw [List.mem_singleton, Except.ok.injEq]
      constructor
      · rintro rfl
        exact ⟨hfind, rfl⟩
      · rintro ⟨-, rfl⟩
        rfl

theorem loaded_get {β : Type} (c : Cache κ β) (key : ρ → Except ε κ) (path : ρ) :
    (c.get key path).loaded = [] := by
  unfold get
  split
  · rfl
  · split <;> rfl

theorem loaded_evict {β : Type} (c : Cache κ β) (key : ρ → Except ε κ) (path : ρ) :
    (c.evict key path).loaded = [] := by
  unfold evict
  split
  · rfl
  · split <;> rfl

theorem loaded_perform (m : Moment ρ ε κ α) (i : Nat) (c : Cache κ (Made α)) :
    (m.perform i c).loaded.length ≤ 1 ∧ ∀ k, k ∈ (m.perform i c).loaded
      ↔ c.find? k = none ∧ ∃ path, m.call = .fetch path ∧ m.key path = .ok k := by
  rcases m with ⟨key, load, path | path | path | -⟩
  · obtain ⟨hlength, hmem⟩ := loaded_fetch c key (fun k => (load k).map (Made.mk i)) path
    rw [perform_fetch rfl, Effect.answered]
    refine ⟨hlength, fun k => (hmem k).trans (and_congr_right fun _ => ?_)⟩
    constructor
    · intro hkey
      exact ⟨path, rfl, hkey⟩
    · rintro ⟨_, hcall, hkey⟩
      cases hcall
      exact hkey
  · rw [perform_get rfl, Effect.answered, loaded_get]
    simp
  · rw [perform_evict rfl, Effect.answered, loaded_evict]
    simp
  · rw [perform_purge rfl, Effect.answered, purge]
    simp

end Calls

/-! ## What every turn keeps -/

section Turns

variable {i : Nat} {c c' : Cache κ (Made α)} {answer : Answer ε (Made α)} {used : Option κ}
  {made evicted : List (κ × Made α)} {e : κ × Made α}

theorem Turn.capacity_eq (h : Turn i c answer used made evicted c') :
    c'.capacity = c.capacity := by
  rcases h <;> rfl

/-- **Nothing is lost and nothing appears.** -/
theorem Turn.perm (h : Turn i c answer used made evicted c') (hc : c.Keyed) :
    (made ++ c.entries).Perm (evicted ++ c'.entries) := by
  rcases h with - | ⟨h, -⟩ | ⟨h, -⟩ | h | -
  · exact List.Perm.refl _
  · exact hc.perm_others h
  · rename_i k v
    have hsplit := c.insert_append k v
    rw [others_of_find?_eq_none h] at hsplit
    rw [List.singleton_append, ← hsplit]
    exact List.perm_append_comm
  · exact hc.perm_others h
  · rw [List.nil_append, List.append_nil]

/-- What is made has a new key. -/
theorem Turn.keys_nodup (h : Turn i c answer used made evicted c') (hc : c.Keyed) :
    ((made ++ c.entries).map Prod.fst).Nodup := by
  rcases h with - | - | ⟨h, -⟩ | - | -
  · exact hc
  · exact hc
  · rw [List.singleton_append, List.map_cons, List.nodup_cons]
    refine ⟨fun hmem => ?_, hc⟩
    obtain ⟨⟨k, w⟩, hold, rfl⟩ := List.mem_map.mp hmem
    exact find?_eq_none.mp h w hold
  · exact hc
  · exact hc

theorem Turn.keyed_append (h : Turn i c answer used made evicted c') (hc : c.Keyed) :
    ((evicted ++ c'.entries).map Prod.fst).Nodup :=
  ((h.perm hc).map Prod.fst).nodup_iff.mp (h.keys_nodup hc)

theorem Turn.keyed (h : Turn i c answer used made evicted c') (hc : c.Keyed) : c'.Keyed := by
  have hall := h.keyed_append hc
  rw [List.map_append] at hall
  exact hall.of_append_right

theorem Turn.size_le (h : Turn i c answer used made evicted c') (hc : c.Keyed)
    (hsize : c.size ≤ c.capacity) : c'.size ≤ c.capacity := by
  rcases h with - | ⟨h, -⟩ | - | h | -
  · exact hsize
  · have hlength := (hc.perm_others h).length_eq
    rwa [size, hlength] at hsize
  · exact size_insert_le _ _ _
  · have hlength := (hc.perm_others h).length_eq
    rw [size, hlength] at hsize
    exact Nat.le_of_succ_le hsize
  · exact Nat.zero_le _

/-- With room for one entry at least, what was just made is not what leaves. -/
theorem Turn.mem_evicted (h : Turn i c answer used made evicted c') (hc : c.Keyed)
    (hroom : 0 < c.capacity) : e ∈ evicted ↔ e ∈ c.entries ∧ e ∉ c'.entries := by
  have hnodup := (h.keyed_append hc).of_map Prod.fst
  have hperm := (h.perm hc).mem_iff (a := e)
  rw [List.mem_append, List.mem_append] at hperm
  constructor
  · intro hmem
    refine ⟨?_, fun hstay => List.disjoint_of_nodup_append hnodup hmem hstay⟩
    rcases h with - | - | ⟨h, -⟩ | h | -
    · exact absurd hmem List.not_mem_nil
    · exact absurd hmem List.not_mem_nil
    · obtain ⟨n, hn⟩ : ∃ n, c.capacity = n + 1 := ⟨c.capacity - 1, by omega⟩
      rw [insert, hn, List.drop_succ_cons, others_of_find?_eq_none h] at hmem
      exact List.mem_of_mem_drop hmem
    · rw [List.mem_singleton.mp hmem]
      exact h
    · exact hmem
  · rintro ⟨hmem, hgone⟩
    exact (hperm.mp (Or.inr hmem)).resolve_right hgone

/-- A key that stays in the cache keeps its object. -/
theorem Turn.stays (h : Turn i c answer used made evicted c') (hc : c.Keyed) {k : κ}
    {v w : Made α} (hv : (k, v) ∈ c.entries) (hw : (k, w) ∈ c'.entries) : (k, v) ∈ c'.entries := by
  have hold := (h.perm hc).mem_iff.mpr (List.mem_append_right evicted hw)
  have hsame := List.inj_on_of_nodup_map (h.keys_nodup hc) (List.mem_append_right made hv) hold rfl
  rw [hsame]
  exact hw

/-- A key that is used comes to the front; nothing else moves. -/
theorem Turn.entries_cases (h : Turn i c answer used made evicted c') :
    (used = none ∧ c'.entries.Sublist c.entries)
      ∨ ∃ k v, used = some k ∧ c'.entries.Sublist ((k, v) :: c.others k) := by
  rcases h with - | - | - | - | -
  · exact Or.inl ⟨rfl, List.Sublist.refl _⟩
  · exact Or.inr ⟨_, _, rfl, List.Sublist.refl _⟩
  · exact Or.inr ⟨_, _, rfl, List.take_sublist _ _⟩
  · exact Or.inl ⟨rfl, List.filter_sublist⟩
  · exact Or.inl ⟨rfl, List.nil_sublist _⟩

theorem Turn.makers_sublist (h : Turn i c answer used made evicted c') :
    (made.map (·.2.maker)).Sublist [i] := by
  rcases h with - | - | ⟨-, hmaker⟩ | - | -
  · exact List.nil_sublist _
  · exact List.nil_sublist _
  · rw [List.map_singleton, hmaker]
  · exact List.nil_sublist _
  · exact List.nil_sublist _

/-- What is made is put in front, if there is room for it. -/
theorem Turn.of_made (h : Turn i c answer used made evicted c') {k : κ} {v : Made α}
    (hmem : (k, v) ∈ made) : c.find? k = none ∧ answer = .fetched (.ok v) ∧ used = some k
      ∧ evicted = ((k, v) :: c.entries).drop c.capacity
      ∧ c'.entries = ((k, v) :: c.entries).take c.capacity := by
  rcases h with - | - | ⟨h, -⟩ | - | -
  · exact absurd hmem List.not_mem_nil
  · exact absurd hmem List.not_mem_nil
  · obtain ⟨rfl, rfl⟩ := Prod.mk.inj (List.mem_singleton.mp hmem)
    refine ⟨h, rfl, rfl, ?_, ?_⟩
    · rw [insert, others_of_find?_eq_none h]
    · rw [insert, others_of_find?_eq_none h]
  · exact absurd hmem List.not_mem_nil
  · exact absurd hmem List.not_mem_nil

theorem Turn.of_failed {f : ε} (h : Turn i c (.fetched (.error f)) used made evicted c') :
    used = none ∧ evicted = [] ∧ c' = c := by
  rcases h with - | ⟨-, hanswer⟩
  · exact ⟨rfl, rfl, rfl⟩
  · rcases hanswer with hanswer | hanswer <;> cases hanswer

end Turns

end Cache

end ManagedImage.Storage
