import Tokilake.Lib.Entries

/-! # Maps by reference

A heap is the list of its maps, whose entries may refer to other maps.  `look` follows a path of
keys and `obs` says what is at its end.  `read` and `alloc` go to trees and back.

* `look_frame`, `look_write`: what a write leaves and what it changes;
* `Owned`, `graft`, `Assembled`: values made of new maps, and what writes into them do. -/

namespace Tokilake.Lib.Heap

open Lib.Entries List Option

variable {κ α : Type}

def Apart (p q : List κ) : Prop := ¬ p <+: q ∧ ¬ q <+: p

lemma Apart.not_prefix_append {p q : List κ} (hpq : Apart p q) (r : List κ) : ¬ p <+: q ++ r := by
  intro hpre
  rcases prefix_or_prefix_of_prefix hpre (prefix_append q r) with hpre | hpre
  · exact hpq.1 hpre
  · exact hpq.2 hpre

inductive Val (α : Type)
  | atom (v : α)
  | map (addr : ℕ)
  deriving DecidableEq

abbrev Cell (κ α : Type) := List (κ × Val α)

abbrev Memory (κ α : Type) := List (Cell κ α)

def cell (h : Memory κ α) (a : ℕ) : Cell κ α := h[a]?.getD []

lemma cell_concat_lt {h : Memory κ α} {a : ℕ} (ha : a < h.length) (c : Cell κ α) :
    cell (h ++ [c]) a = cell h a := by
  rw [cell, getElem?_append_left ha, cell]

lemma cell_concat_length (h : Memory κ α) (c : Cell κ α) : cell (h ++ [c]) h.length = c := by
  simp [cell]

def Val.atom? : Val α → Option α
  | .atom v => some v
  | .map _ => none

section
variable [BEq κ]

def look (h : Memory κ α) : Val α → List κ → Option (Val α)
  | v, [] => some v
  | .atom _, _ :: _ => none
  | .map a, k :: ks => ((cell h a).lookup k).bind fun v => look h v ks

def obs (h : Memory κ α) (v : Val α) (p : List κ) : Option (Option α) := (look h v p).map Val.atom?

variable {h h' : Memory κ α} {v w : Val α}

variable (h)

@[simp] lemma look_nil (v : Val α) : look h v [] = some v := by cases v <;> rfl

@[simp] lemma look_map_cons (a : ℕ) (k : κ) (ks : List κ) :
    look h (.map a) (k :: ks) = ((cell h a).lookup k).bind fun v => look h v ks := rfl

@[simp] lemma look_atom_cons (x : α) (k : κ) (ks : List κ) :
    look h (.atom x) (k :: ks) = none := rfl

lemma look_append (h : Memory κ α) : ∀ (p q : List κ) (v : Val α),
    look h v (p ++ q) = (look h v p).bind fun w => look h w q
  | [], q, v => by simp
  | k :: p, q, .atom x => rfl
  | k :: p, q, .map a => by
    rw [cons_append, look_map_cons, look_map_cons]
    cases (cell h a).lookup k with
    | none => rfl
    | some w => exact look_append h p q w

def write (a : ℕ) (key : κ) (value : Val α) : Memory κ α := h.set a (put (cell h a) key value)

@[simp] lemma length_write (a : ℕ) (key : κ) (value : Val α) :
    (write h a key value).length = h.length := by
  simp [write]

variable {h}

lemma cell_write_self {a : ℕ} (ha : a < h.length) (key : κ) (value : Val α) :
    cell (write h a key value) a = put (cell h a) key value := by
  rw [cell, write, getElem?_set_self ha, getD_some]

lemma cell_write_ne {a b : ℕ} (hab : a ≠ b) (key : κ) (value : Val α) :
    cell (write h a key value) b = cell h b := by
  rw [cell, write, getElem?_set_ne hab, cell]

/-! ### Closed parts -/

def Val.Below (n : ℕ) : Val α → Prop
  | .atom _ => True
  | .map a => a < n

def ClosedBelow (n : ℕ) (h : Memory κ α) : Prop := ∀ a < n, ∀ entry ∈ cell h a, entry.2.Below n

lemma Val.Below.mono {n m : ℕ} (hnm : n ≤ m) : ∀ {v : Val α}, v.Below n → v.Below m
  | .atom _, _ => trivial
  | .map _, hv => Nat.lt_of_lt_of_le hv hnm

lemma closedBelow_write {m a : ℕ} {key : κ} {value : Val α} (hclosed : ClosedBelow m h)
    (hvalue : value.Below m) (ha : a < h.length) : ClosedBelow m (write h a key value) := by
  intro b hb entry hentry
  by_cases hab : a = b
  · subst hab
    rw [cell_write_self ha, put, mem_append, mem_filter, mem_singleton] at hentry
    rcases hentry with ⟨hentry, -⟩ | rfl
    · exact hclosed a hb entry hentry
    · exact hvalue
  · rw [cell_write_ne hab] at hentry
    exact hclosed b hb entry hentry

/-- The maps from `n` on are reached on one path each, those below only under grafted paths. -/
structure Owned (n : ℕ) (grafted : List (List κ)) (h : Memory κ α) (v : Val α) : Prop where
  fresh : ∀ p a, look h v p = some (.map a) → n ≤ a ∨ ∃ path ∈ grafted, path <+: p
  unshared : ∀ p q a, n ≤ a → look h v p = some (.map a) → look h v q = some (.map a) → p = q

lemma Owned.le {n a : ℕ} {grafted : List (List κ)} {init : List κ} {key : κ}
    (howned : Owned n grafted h v) (hinit : look h v init = some (.map a))
    (hfree : ∀ path ∈ grafted, ¬ path <+: init ++ [key]) : n ≤ a := by
  rcases howned.fresh init a hinit with hle | ⟨path, hpath, hpre⟩
  · exact hle
  · exact absurd (hpre.trans (prefix_append init [key])) (hfree path hpath)

structure Assembled (n : ℕ) (h₀ : Memory κ α) (v : Val α) (puts : List (List κ × Val α))
    (h : Memory κ α) : Prop where
  closed : ClosedBelow h.length h
  below : v.Below h.length
  closedBelow : ClosedBelow n h
  frame : ∀ a < n, cell h a = cell h₀ a
  owned : Owned n (puts.map Prod.fst) h v
  under : ∀ g ∈ puts, ∀ r, look h v (g.1 ++ r) = look h₀ g.2 r
  beside : ∀ p, (∀ g ∈ puts, ¬ g.1 <+: p) → look h v p = look h₀ v p

lemma assembled_nil {n : ℕ} (hclosed : ClosedBelow h.length h) (hv : v.Below h.length)
    (hbelow : ClosedBelow n h) (howned : Owned n [] h v) : Assembled n h v [] h :=
  ⟨hclosed, hv, hbelow, fun _ _ => rfl, howned, nofun, fun _ _ => rfl⟩

variable [LawfulBEq κ]

lemma look_below {n : ℕ} (hclosed : ClosedBelow n h) : ∀ {p : List κ} {v : Val α}, v.Below n →
    look h v p = some w → w.Below n
  | [], v, hv, hl => by
    rw [look_nil, some_inj] at hl
    exact hl ▸ hv
  | k :: p, .map a, hv, hl => by
    obtain ⟨u, hu, hl⟩ := bind_eq_some_iff.mp hl
    exact look_below hclosed (hclosed a hv (k, u) (mem_of_lookup hu)) hl

/-- **The frame rule**: what is closed below `n` depends on the maps below `n` only. -/
theorem look_frame {n : ℕ} (hclosed : ClosedBelow n h) (hsame : ∀ a < n, cell h' a = cell h a) :
    ∀ (p : List κ) {v : Val α}, v.Below n → look h' v p = look h v p
  | [], v, _ => by rw [look_nil, look_nil]
  | k :: p, .atom x, _ => rfl
  | k :: p, .map a, hv => by
    rw [look_map_cons, look_map_cons, hsame a hv]
    cases hu : (cell h a).lookup k with
    | none => rfl
    | some u => exact look_frame hclosed hsame p (hclosed a hv (k, u) (mem_of_lookup hu))

lemma obs_frame {n : ℕ} (hclosed : ClosedBelow n h) (hsame : ∀ a < n, cell h' a = cell h a)
    (p : List κ) (hv : v.Below n) : obs h' v p = obs h v p := by
  rw [obs, obs, look_frame hclosed hsame p hv]

/-! ### Writes -/

variable [DecidableEq κ]

lemma lookup_cell_write {a : ℕ} (ha : a < h.length) (key k : κ) (value : Val α) :
    (cell (write h a key value) a).lookup k = if k = key then some value
      else (cell h a).lookup k := by
  rw [cell_write_self ha, lookup_put]

/-- **A write is seen only on the paths that go through it.** -/
theorem look_write {a : ℕ} (ha : a < h.length) {key : κ} (value : Val α) :
    ∀ (p : List κ) (v : Val α), (∀ q, q ++ [key] <+: p → look h v q ≠ some (.map a)) →
      look (write h a key value) v p = look h v p
  | [], v, _ => by rw [look_nil, look_nil]
  | k :: p, .atom x, _ => rfl
  | k :: p, .map b, hno => by
    have hentry : (cell (write h a key value) b).lookup k = (cell h b).lookup k := by
      by_cases hab : a = b
      · subst hab
        have hk : k ≠ key := by
          rintro rfl
          exact hno [] (by simp) (look_nil h _)
        rw [lookup_cell_write ha, if_neg hk]
      · rw [cell_write_ne hab]
    rw [look_map_cons, look_map_cons, hentry]
    cases hu : (cell h b).lookup k with
    | none => rfl
    | some u =>
      refine look_write ha value p u fun q hq => ?_
      have hcons := hno (k :: q) (by simpa using hq)
      rwa [look_map_cons, hu, bind_some] at hcons

/-! ### Values of one's own -/

structure Grafted (n : ℕ) (path : List κ) (value : Val α) (h h' : Memory κ α)
    (v : Val α) : Prop where
  frame : ∀ a < n, cell h' a = cell h a
  under : ∀ r, look h' v (path ++ r) = look h value r
  beside : ∀ p, ¬ path <+: p → look h' v p = look h v p

variable {n a : ℕ} {grafted : List (List κ)} {init : List κ} {key : κ} {value : Val α}

/-- **A write into a value of one's own** is seen at its path and nowhere else. -/
theorem graft (howned : Owned n grafted h v) (hclosed : ClosedBelow n h) (hvalue : value.Below n)
    (ha : a < h.length) (hinit : look h v init = some (.map a))
    (hfree : ∀ path ∈ grafted, ¬ path <+: init ++ [key]) :
    Grafted n (init ++ [key]) value h (write h a key value) v := by
  have hle := howned.le hinit hfree
  have hframe : ∀ b < n, cell (write h a key value) b = cell h b :=
    fun b hb => cell_write_ne (by omega) key value
  -- the map written to is reached on `init` alone
  have hbeside : ∀ p, ¬ init ++ [key] <+: p → look (write h a key value) v p = look h v p := by
    intro p hp
    refine look_write ha value p v fun q hq hreach => hp ?_
    rwa [← howned.unshared q init a hle hreach hinit]
  refine ⟨hframe, fun r => ?_, hbeside⟩
  have hinit' : look (write h a key value) v init = some (.map a) := by
    rw [hbeside init, hinit]
    intro hpre
    have hlen := hpre.length_le
    rw [length_append, length_singleton] at hlen
    omega
  rw [append_assoc, look_append, hinit', bind_some, singleton_append, look_map_cons,
    lookup_cell_write ha, if_pos rfl, bind_some, look_frame hclosed hframe r hvalue]

lemma Owned.graft (howned : Owned n grafted h v) (hclosed : ClosedBelow n h)
    (hvalue : value.Below n)
    {h' : Memory κ α} {path : List κ} (hg : Grafted n path value h h' v) :
    Owned n (grafted ++ [path]) h' v := by
  have hold : ∀ p b, path <+: p → look h' v p = some (.map b) → b < n := by
    rintro p b ⟨r, rfl⟩ hp
    rw [hg.under] at hp
    exact look_below hclosed hvalue hp
  constructor
  · intro p b hp
    by_cases hpre : path <+: p
    · exact Or.inr ⟨path, by simp, hpre⟩
    rw [hg.beside p hpre] at hp
    rcases howned.fresh p b hp with hle | ⟨path', hpath', hpre'⟩
    · exact Or.inl hle
    · exact Or.inr ⟨path', mem_append_left _ hpath', hpre'⟩
  · intro p q b hle hp hq
    have hnot : ∀ {p}, look h' v p = some (.map b) → ¬ path <+: p := by
      intro p hp hpre
      have := hold p b hpre hp
      omega
    rw [hg.beside p (hnot hp)] at hp
    rw [hg.beside q (hnot hq)] at hq
    exact howned.unshared p q b hle hp hq

/-! ### Several writes -/

lemma Assembled.write {h₀ : Memory κ α} {puts : List (List κ × Val α)}
    (hh : Assembled n h₀ v puts h) (hn : n ≤ h.length) (hvalue : value.Below n)
    (hinit : look h v init = some (.map a)) (hapart : ∀ g ∈ puts, Apart (init ++ [key]) g.1) :
    Assembled n h₀ v (puts ++ [(init ++ [key], value)]) (write h a key value) := by
  have ha : a < h.length := look_below hh.closed hh.below hinit
  have hfree : ∀ path ∈ puts.map Prod.fst, ¬ path <+: init ++ [key] := by
    intro path hpath
    obtain ⟨g, hg, rfl⟩ := mem_map.mp hpath
    exact (hapart g hg).2
  have hg := graft hh.owned hh.closedBelow hvalue ha hinit hfree
  have hframe : ∀ b < n, cell (Heap.write h a key value) b = cell h₀ b :=
    fun b hb => (hg.frame b hb).trans (hh.frame b hb)
  have hold : ∀ r, look h value r = look h₀ value r := by
    intro r
    have hclosed₀ : ClosedBelow n h₀ := by
      intro b hb entry hentry
      rw [← hh.frame b hb] at hentry
      exact hh.closedBelow b hb entry hentry
    exact look_frame hclosed₀ hh.frame r hvalue
  refine ⟨?_, ?_, closedBelow_write hh.closedBelow hvalue ha, hframe, ?_, ?_, ?_⟩
  · rw [length_write]
    exact closedBelow_write hh.closed (hvalue.mono hn) ha
  · rw [length_write]
    exact hh.below
  · rw [map_append]
    exact hh.owned.graft hh.closedBelow hvalue hg
  · intro g hmem r
    rcases mem_append.mp hmem with hmem | hmem
    · rw [hg.beside _ ((hapart g hmem).not_prefix_append r), hh.under g hmem r]
    · obtain rfl := mem_singleton.mp hmem
      rw [hg.under, hold]
  · intro p hp
    rw [hg.beside p (hp (init ++ [key], value) (by simp)),
      hh.beside p fun g hmem => hp g (mem_append_left _ hmem)]

end

/-! ### Trees -/

/-- A value without references. -/
inductive Tree (κ α : Type)
  | leaf (v : α)
  | node (members : List (κ × Tree κ α))

def Tree.atom? : Tree κ α → Option α
  | .leaf v => some v
  | .node _ => none

def read (h : Memory κ α) : ℕ → Val α → Option (Tree κ α)
  | _, .atom v => some (.leaf v)
  | 0, .map _ => none
  | n + 1, .map a =>
    ((cell h a).mapM fun entry => (read h n entry.2).map fun t => (entry.1, t)).map Tree.node

mutual

def alloc : Tree κ α → Memory κ α → Memory κ α × Val α
  | .leaf v, h => (h, .atom v)
  | .node ms, h =>
    ((allocMembers ms h).1 ++ [(allocMembers ms h).2], .map (allocMembers ms h).1.length)

def allocMembers : List (κ × Tree κ α) → Memory κ α → Memory κ α × Cell κ α
  | [], h => (h, [])
  | (k, t) :: ms, h =>
    ((allocMembers ms (alloc t h).1).1, (k, (alloc t h).2) :: (allocMembers ms (alloc t h).1).2)

end

variable [BEq κ]

def Tree.look : Tree κ α → List κ → Option (Tree κ α)
  | t, [] => some t
  | .leaf _, _ :: _ => none
  | .node ms, k :: ks => (ms.lookup k).bind fun t => t.look ks

def Tree.obs (t : Tree κ α) (p : List κ) : Option (Option α) := (t.look p).map Tree.atom?

@[simp] lemma Tree.obs_nil (t : Tree κ α) : t.obs [] = some t.atom? := by cases t <;> rfl

@[simp] lemma Tree.obs_node_cons (ms : List (κ × Tree κ α)) (k : κ) (ks : List κ) :
    (Tree.node ms).obs (k :: ks) = (ms.lookup k).bind fun t => t.obs ks := by
  unfold Tree.obs
  rw [Tree.look]
  cases ms.lookup k <;> rfl

@[simp] lemma obs_nil (h : Memory κ α) (v : Val α) : obs h v [] = some v.atom? := by
  rw [obs, look_nil, map_some]

@[simp] lemma obs_map_cons (h : Memory κ α) (a : ℕ) (k : κ) (ks : List κ) :
    obs h (.map a) (k :: ks) = ((cell h a).lookup k).bind fun v => obs h v ks := by
  rw [obs, look_map_cons]
  cases (cell h a).lookup k <;> rfl

lemma obs_atom (h : Memory κ α) (x : α) (p : List κ) : obs h (.atom x) p = (Tree.leaf x).obs p := by
  cases p <;> rfl

variable {h h' : Memory κ α}

/-! ### Values made of trees -/

structure Copied (h h' : Memory κ α) (t : Tree κ α) (v : Val α) : Prop where
  length : h.length ≤ h'.length
  same : ∀ a < h.length, cell h' a = cell h a
  closed : ClosedBelow h'.length h'
  below : v.Below h'.length
  obs : ∀ p, obs h' v p = t.obs p
  owned : Owned h.length [] h' v

structure CopiedMembers (h h' : Memory κ α) (ms : List (κ × Tree κ α)) (c : Cell κ α) : Prop where
  length : h.length ≤ h'.length
  same : ∀ a < h.length, cell h' a = cell h a
  closed : ClosedBelow h'.length h'
  below : ∀ entry ∈ c, entry.2.Below h'.length
  obs : ∀ k p, ((c.lookup k).bind fun v => obs h' v p) = (ms.lookup k).bind fun t => t.obs p
  fresh : ∀ k v p a, c.lookup k = some v → look h' v p = some (.map a) → h.length ≤ a
  unshared : ∀ k k' v v' p q a, c.lookup k = some v → c.lookup k' = some v' →
    look h' v p = some (.map a) → look h' v' q = some (.map a) → k = k' ∧ p = q

lemma look_atom_ne (h : Memory κ α) (x : α) (p : List κ) (a : ℕ) :
    look h (.atom x) p ≠ some (.map a) := by
  cases p <;> simp

lemma copied_leaf (hclosed : ClosedBelow h.length h) (x : α) : Copied h h (.leaf x) (.atom x) where
  length := Nat.le_refl _
  same _ _ := rfl
  closed := hclosed
  below := trivial
  obs := obs_atom h x
  owned := ⟨fun p a hp => absurd hp (look_atom_ne h x p a),
    fun p _ a _ hp _ => absurd hp (look_atom_ne h x p a)⟩

lemma copiedMembers_nil (hclosed : ClosedBelow h.length h) :
    CopiedMembers h h ([] : List (κ × Tree κ α)) [] where
  length := Nat.le_refl _
  same _ _ := rfl
  closed := hclosed
  below := nofun
  obs _ _ := rfl
  fresh := nofun
  unshared := nofun

variable [LawfulBEq κ]

lemma lookup_mapM {f : Val α → Option (Tree κ α)} : ∀ {c : Cell κ α} {ms : List (κ × Tree κ α)},
    (c.mapM fun entry => (f entry.2).map fun t => (entry.1, t)) = some ms →
    ∀ k, (c.lookup k).map f = (ms.lookup k).map some
  | [], ms, hms, k => by
    obtain rfl : ms = [] := by simpa [eq_comm] using hms
    rfl
  | (first, v) :: c, ms, hms, k => by
    simp only [mapM_cons, Option.bind_eq_bind, Option.bind_eq_some_iff, Option.map_eq_some_iff,
      Option.pure_def, Option.some_inj] at hms
    obtain ⟨_, ⟨t, ht, rfl⟩, ms', hms', rfl⟩ := hms
    by_cases hk : k = first
    · rw [hk, lookup_cons_self, lookup_cons_self, Option.map_some, Option.map_some, ht]
    · rw [lookup_cons_ne hk, lookup_cons_ne hk, lookup_mapM hms' k]

lemma obs_read : ∀ {n : ℕ} {v : Val α} {t : Tree κ α}, read h n v = some t →
    ∀ p, obs h v p = t.obs p
  | n, .atom x, t, ht, p => by
    obtain rfl : t = .leaf x := by cases n <;> exact (some.inj ht).symm
    exact obs_atom h x p
  | n + 1, .map a, t, ht, p => by
    obtain ⟨ms, hms, rfl⟩ := map_eq_some_iff.mp ht
    cases p with
    | nil => simp [Val.atom?, Tree.atom?]
    | cons k p =>
      rw [obs_map_cons, Tree.obs_node_cons]
      have hmember := lookup_mapM hms k
      cases hv : (cell h a).lookup k with
      | none =>
        rw [hv, map_none, eq_comm, map_eq_none_iff] at hmember
        rw [hmember, bind_none, bind_none]
      | some v =>
        rw [hv, map_some, eq_comm, map_eq_some_iff] at hmember
        obtain ⟨t, ht, hread⟩ := hmember
        rw [ht, bind_some, bind_some]
        exact obs_read hread.symm p

lemma copied_node {ms : List (κ × Tree κ α)} {c : Cell κ α} (hc : CopiedMembers h h' ms c) :
    Copied h (h' ++ [c]) (.node ms) (.map h'.length) := by
  have hlook : ∀ k v p, c.lookup k = some v → look (h' ++ [c]) v p = look h' v p := by
    intro k v p hv
    exact look_frame hc.closed (fun a ha => cell_concat_lt ha c) p
      (hc.below (k, v) (mem_of_lookup hv))
  have hcons : ∀ {k p a}, look (h' ++ [c]) (.map h'.length) (k :: p) = some (.map a) →
      ∃ v, c.lookup k = some v ∧ look h' v p = some (.map a) := by
    intro k p a hp
    rw [look_map_cons, cell_concat_length] at hp
    obtain ⟨v, hv, hp⟩ := bind_eq_some_iff.mp hp
    exact ⟨v, hv, hlook k v p hv ▸ hp⟩
  refine ⟨?_, ?_, ?_, ?_, ?_, ?_, ?_⟩
  · have := hc.length
    simp only [length_append]
    omega
  · intro a ha
    rw [cell_concat_lt (Nat.lt_of_lt_of_le ha hc.length), hc.same a ha]
  · intro a ha entry hentry
    have hle : h'.length ≤ (h' ++ [c]).length := by simp
    rcases Nat.lt_or_ge a h'.length with hlt | hge
    · rw [cell_concat_lt hlt] at hentry
      exact (hc.closed a hlt entry hentry).mono hle
    obtain rfl : a = h'.length := by
      rw [length_append, length_singleton] at ha
      omega
    rw [cell_concat_length] at hentry
    exact (hc.below entry hentry).mono hle
  · simp [Val.Below]
  · intro p
    cases p with
    | nil => simp [Val.atom?, Tree.atom?]
    | cons k p =>
      rw [obs_map_cons, cell_concat_length, Tree.obs_node_cons, ← hc.obs k p]
      cases hv : c.lookup k with
      | none => rfl
      | some v => simp only [bind_some, obs, hlook k v p hv]
  · intro p a hp
    cases p with
    | nil =>
      obtain rfl : h'.length = a := by simpa using hp
      exact Or.inl hc.length
    | cons k p =>
      obtain ⟨v, hv, hp⟩ := hcons hp
      exact Or.inl (hc.fresh k v p a hv hp)
  · -- the members' maps are below the new one, so it is reached on the empty path only
    have hbelow : ∀ {k p}, look (h' ++ [c]) (.map h'.length) (k :: p) ≠ some (.map h'.length) := by
      intro k p hp
      obtain ⟨v, hv, hp⟩ := hcons hp
      have hlt := look_below hc.closed (hc.below (k, v) (mem_of_lookup hv)) hp
      exact absurd hlt (Nat.lt_irrefl _)
    intro p q a _ hp hq
    cases p with
    | nil =>
      obtain rfl : h'.length = a := by simpa using hp
      cases q with
      | nil => rfl
      | cons k q => exact absurd hq hbelow
    | cons k p =>
      cases q with
      | nil =>
        obtain rfl : h'.length = a := by simpa using hq
        exact absurd hp hbelow
      | cons k' q =>
        obtain ⟨v, hv, hp⟩ := hcons hp
        obtain ⟨v', hv', hq⟩ := hcons hq
        obtain ⟨rfl, rfl⟩ := hc.unshared k k' v v' p q a hv hv' hp hq
        rfl

lemma copiedMembers_cons {h₁ : Memory κ α} {k₀ : κ} {t : Tree κ α} {v₀ : Val α}
    {ms : List (κ × Tree κ α)} {c : Cell κ α} (ht : Copied h h₁ t v₀)
    (hc : CopiedMembers h₁ h' ms c) :
    CopiedMembers h h' ((k₀, t) :: ms) ((k₀, v₀) :: c) := by
  have hfirst : ∀ p, look h' v₀ p = look h₁ v₀ p := fun p => look_frame ht.closed hc.same p ht.below
  have hfirst_lt : ∀ {p a}, look h' v₀ p = some (.map a) → a < h₁.length := by
    intro p a hp
    rw [hfirst p] at hp
    exact look_below ht.closed ht.below hp
  refine ⟨Nat.le_trans ht.length hc.length, ?_, hc.closed, ?_, ?_, ?_, ?_⟩
  · intro a ha
    rw [hc.same a (Nat.lt_of_lt_of_le ha ht.length), ht.same a ha]
  · intro entry hentry
    rcases mem_cons.mp hentry with rfl | hentry
    · exact ht.below.mono hc.length
    · exact hc.below entry hentry
  · intro k p
    by_cases hk : k = k₀
    · rw [hk, lookup_cons_self, lookup_cons_self, bind_some, bind_some,
        ← ht.obs p, obs, obs, hfirst p]
    · rw [lookup_cons_ne hk, lookup_cons_ne hk]
      exact hc.obs k p
  · intro k v p a hv hp
    by_cases hk : k = k₀
    · rw [hk, lookup_cons_self, some_inj] at hv
      subst hv
      rw [hfirst p] at hp
      simpa using ht.owned.fresh p a hp
    · rw [lookup_cons_ne hk] at hv
      exact Nat.le_trans ht.length (hc.fresh k v p a hv hp)
  · intro k k' v v' p q a hv hv' hp hq
    by_cases hk : k = k₀
    · rw [hk, lookup_cons_self, some_inj] at hv
      subst hv
      by_cases hk' : k' = k₀
      · rw [hk', lookup_cons_self, some_inj] at hv'
        subst hv'
        rw [hfirst] at hp hq
        have hle : h.length ≤ a := by simpa using ht.owned.fresh p a hp
        exact ⟨hk.trans hk'.symm, ht.owned.unshared p q a hle hp hq⟩
      · rw [lookup_cons_ne hk'] at hv'
        have hlt := hfirst_lt hp
        have hge := hc.fresh k' v' q a hv' hq
        omega
    · rw [lookup_cons_ne hk] at hv
      by_cases hk' : k' = k₀
      · rw [hk', lookup_cons_self, some_inj] at hv'
        subst hv'
        have hlt := hfirst_lt hq
        have hge := hc.fresh k v p a hv hp
        omega
      · rw [lookup_cons_ne hk'] at hv'
        exact hc.unshared k k' v v' p q a hv hv' hp hq

mutual

/-- **Making a value** leaves the memory as it was, and the value is its own. -/
theorem alloc_copied : ∀ (t : Tree κ α) {h : Memory κ α}, ClosedBelow h.length h →
    Copied h (alloc t h).1 t (alloc t h).2
  | .leaf x, _, hclosed => copied_leaf hclosed x
  | .node ms, _, hclosed => copied_node (allocMembers_copied ms hclosed)

lemma allocMembers_copied : ∀ (ms : List (κ × Tree κ α)) {h : Memory κ α},
    ClosedBelow h.length h → CopiedMembers h (allocMembers ms h).1 ms (allocMembers ms h).2
  | [], _, hclosed => copiedMembers_nil hclosed
  | (_, t) :: ms, _, hclosed =>
    copiedMembers_cons (alloc_copied t hclosed)
      (allocMembers_copied ms (alloc_copied t hclosed).closed)

end

end Tokilake.Lib.Heap
