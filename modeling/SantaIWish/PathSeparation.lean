import SantaIWish.Controller.Records
import SantaIWish.Controller.Screens

/-!
# The paths of different records

A record is written at a path built from the texts of its child and of itself.
The texts act as keys: two siblings whose keys are not below one another never
touch each other, and neither do their parts.
-/

namespace SantaIWish
open PathWrites RealtimeDatabase
set_option autoImplicit false

def KeysApart (a b : Option String) : Prop :=
  ¬ Comparable (pathSegments (a.getD "")) (pathSegments (b.getD ""))

structure KeysSeparated (s : Store) : Prop where
  childKey : ∀ c ∈ s.children, pathSegments (c.name.getD "") ≠ []
  children : ∀ c ∈ s.children, ∀ d ∈ s.children, c.objectID ≠ d.objectID → KeysApart c.name d.name
  items : ∀ i ∈ s.items, ∀ j ∈ s.items, i.child = j.child → i.objectID ≠ j.objectID →
    KeysApart i.name j.name
  letters : ∀ l ∈ s.letters, ∀ m ∈ s.letters, l.child = m.child → l.objectID ≠ m.objectID →
    KeysApart l.title m.title

theorem keysApart_of_validKey {a b : Option String} (ha : validKey (a.getD "") = true)
    (hb : validKey (b.getD "") = true) (hab : a.getD "" ≠ b.getD "") : KeysApart a b := by
  rw [KeysApart, pathSegments_of_validKey ha, pathSegments_of_validKey hb, comparable_cons]
  exact fun h => hab h.1

theorem getD_ne_of_nodup_map {A : Type} {text : A → Option String} {xs : List A}
    (hxs : (xs.map text).Nodup) {x y : A} (hx : x ∈ xs) (hy : y ∈ xs) {a b : String}
    (ha : text x = some a) (hb : text y = some b) (hxy : x ≠ y) :
    (text x).getD "" ≠ (text y).getD "" := by
  intro heq
  rw [ha, hb, Option.getD_some, Option.getD_some] at heq
  exact hxy (Fields.eq_of_key_eq hxs hx hy (by rw [ha, hb, heq]))

/-- Valid texts that differ among siblings are separated keys. -/
theorem KeysValid.keysSeparated {s : Store} (hs : s.WellFormed) (h : KeysValid s) :
    KeysSeparated s := by
  constructor
  · intro c hc hnil
    rw [pathSegments_of_validKey (h.childName c hc)] at hnil
    cases hnil
  · intro c hc d hd hcd
    apply keysApart_of_validKey (h.childName c hc) (h.childName d hd)
    obtain ⟨name, _, hname, _⟩ := hs.attributes c hc
    obtain ⟨name', _, hname', _⟩ := hs.attributes d hd
    exact getD_ne_of_nodup_map h.childNames hc hd hname hname' fun hcd' => hcd (by rw [hcd'])
  · intro i hi j hj hchild hij
    apply keysApart_of_validKey (h.itemName i hi) (h.itemName j hj)
    obtain ⟨⟨rep, hrep⟩, c, hc, hic⟩ := hs.item i hi
    obtain ⟨⟨rep', hrep'⟩, _⟩ := hs.item j hj
    have hjc : j.child = some c.objectID := hchild.symm.trans hic
    exact getD_ne_of_nodup_map (h.itemNames c hc) (List.mem_filter.mpr ⟨hi, by simpa using hic⟩)
      (List.mem_filter.mpr ⟨hj, by simpa using hjc⟩) (Item.name_of_representation hrep)
      (Item.name_of_representation hrep') fun hij' => hij (by rw [hij'])
  · intro l hl m hm hchild hlm
    apply keysApart_of_validKey (h.letterTitle l hl) (h.letterTitle m hm)
    obtain ⟨⟨rep, hrep⟩, c, hc, hlc⟩ := hs.letter l hl
    obtain ⟨⟨rep', hrep'⟩, _⟩ := hs.letter m hm
    have hmc : m.child = some c.objectID := hchild.symm.trans hlc
    exact getD_ne_of_nodup_map (h.letterTitles c hc) (List.mem_filter.mpr ⟨hl, by simpa using hlc⟩)
      (List.mem_filter.mpr ⟨hm, by simpa using hmc⟩) (Letter.title_of_representation hrep)
      (Letter.title_of_representation hrep') fun hlm' => hlm (by rw [hlm'])

/-- Two records neither of which is, or is part of, the other. -/
def Unrelated (r r' : RecordRef) : Prop :=
  r.owner ≠ r'.owner ∨ (r.isPart = true ∧ r'.isPart = true ∧ r ≠ r')

/-- What the paths of the records of an account promise. -/
structure PathsSeparated (uid : String) (s : Store) : Prop where
  below : ∀ (r : RecordRef) (q : URLRequest), r.isPart = true → r.In s → r.request uid s = some q →
    ∃ q₀, (RecordRef.child r.owner).request uid s = some q₀ ∧ q₀.path <+: q.path ∧ q₀.path ≠ q.path
  apart : ∀ (r r' : RecordRef) (q q' : URLRequest), r.In s → r'.In s → Unrelated r r' →
    r.request uid s = some q → r'.request uid s = some q' → ¬ Comparable q.path q'.path
  root : ∀ (r : RecordRef) (q : URLRequest), r.In s → r.request uid s = some q →
    ¬ q.path <+: (childrenURL uid).pathComponents
  /-- Serving the request of a record leaves the subtree of an unrelated one as it was. -/
  frame : ∀ (r r' : RecordRef) (q q' : URLRequest), r.In s → r'.In s → Unrelated r r' →
    r.request uid s = some q → r'.request uid s = some q' →
    ∀ t, sub q'.path (leaves (q.serve t)) = sub q'.path (leaves t)
  accounts : ∀ (r : RecordRef) (q : URLRequest) (uid' : String), r.In s → r.request uid s = some q →
    ¬ Comparable (pathSegments uid) (pathSegments uid') →
    ∀ t, sub (accountURL uid').pathComponents (leaves (q.serve t)) =
      sub (accountURL uid').pathComponents (leaves t)

/-! ## Separated keys are separated paths -/

theorem KeysSeparated.not_comparable_keys {s : Store} (hs : s.WellFormed) (h : KeysSeparated s)
    {r r' : RecordRef} (hr : r.In s) (hr' : r'.In s) (hunrelated : Unrelated r r') :
    ¬ Comparable (r.key s) (r'.key s) := by
  intro hcmp
  obtain ⟨c, hc, howner⟩ := RecordRef.owner_mem hs hr
  obtain ⟨d, hd, howner'⟩ := RecordRef.owner_mem hs hr'
  by_cases hne : r.owner = r'.owner
  · -- two parts of one child: the same kind of part, whose own keys are apart
    obtain ⟨hpart, hpart', hrr⟩ := hunrelated.resolve_left fun h => h hne
    have hparts : Comparable (r.partKey s) (r'.partKey s) := by
      rw [RecordRef.key, RecordRef.key, hne] at hcmp
      exact (comparable_append_left _ _ _).mp hcmp
    cases r with
    | child c => cases hpart
    | item c i =>
      obtain ⟨x, hx, rfl, hxc⟩ := hr
      cases r' with
      | child d => cases hpart'
      | item d j =>
        obtain ⟨y, hy, rfl, hyd⟩ := hr'
        obtain rfl : c = d := hne
        have hids : x.objectID ≠ y.objectID := fun he => hrr (by rw [he])
        apply h.items x hx y hy (hxc.trans hyd.symm) hids
        rw [← hs.itemKey_of_mem hx, ← hs.itemKey_of_mem hy]
        exact (comparable_cons.mp hparts).2
      | letter d m => exact absurd (comparable_cons.mp hparts).1 (by decide)
    | letter c l =>
      obtain ⟨x, hx, rfl, hxc⟩ := hr
      cases r' with
      | child d => cases hpart'
      | item d j => exact absurd (comparable_cons.mp hparts).1 (by decide)
      | letter d m =>
        obtain ⟨y, hy, rfl, hyd⟩ := hr'
        obtain rfl : c = d := hne
        have hids : x.objectID ≠ y.objectID := fun he => hrr (by rw [he])
        apply h.letters x hx y hy (hxc.trans hyd.symm) hids
        rw [← hs.letterKey_of_mem hx, ← hs.letterKey_of_mem hy]
        exact (comparable_cons.mp hparts).2
  · -- the keys already part at the children
    have hids : c.objectID ≠ d.objectID := by rwa [howner, howner']
    apply h.children c hc d hd hids
    rw [← hs.childKey_of_mem hc, ← hs.childKey_of_mem hd, howner, howner']
    exact hcmp.of_append

theorem KeysSeparated.pathsSeparated (uid : String) {s : Store} (hs : s.WellFormed)
    (h : KeysSeparated s) : PathsSeparated uid s := by
  have hapart : ∀ (r r' : RecordRef) (q q' : URLRequest), r.In s → r'.In s → Unrelated r r' →
      r.request uid s = some q → r'.request uid s = some q' → ¬ Comparable q.path q'.path := by
    intro r r' q q' hr hr' hunrelated hq hq'
    rw [(RecordRef.request_path hq).2, (RecordRef.request_path hq').2, comparable_append_left]
    exact h.not_comparable_keys hs hr hr' hunrelated
  constructor
  · intro r q hpart hr hq
    have howner : (RecordRef.child r.owner).In s := List.mem_map.mpr (RecordRef.owner_mem hs hr)
    obtain ⟨q₀, hq₀⟩ := RecordRef.exists_request uid hs howner
    have hpath : q.path = q₀.path ++ r.partKey s := by
      rw [(RecordRef.request_path hq).2, (RecordRef.request_path hq₀).2]
      simp [RecordRef.key, RecordRef.owner, RecordRef.partKey]
    refine ⟨q₀, hq₀, ⟨r.partKey s, hpath.symm⟩, fun heq => ?_⟩
    rw [hpath, List.self_eq_append_right] at heq
    cases r with
    | child c => cases hpart
    | item c i => cases heq
    | letter c l => cases heq
  · exact hapart
  · intro r q hr hq hroot
    obtain ⟨c, hc, howner⟩ := RecordRef.owner_mem hs hr
    rw [(RecordRef.request_path hq).2] at hroot
    have hlen := hroot.length_le
    rw [List.length_append] at hlen
    have hkey : r.key s = [] := List.length_eq_zero_iff.mp (by omega)
    apply h.childKey c hc
    rw [← hs.childKey_of_mem hc, howner]
    exact (List.append_eq_nil_iff.mp hkey).1
  · intro r r' q q' hr hr' hunrelated hq hq' t
    rw [(RecordRef.request_path hq).1.leaves_serve]
    exact sub_write_of_incomparable _ _ (hapart r r' q q' hr hr' hunrelated hq hq')
  · intro r q uid' hr hq huid t
    rw [(RecordRef.request_path hq).1.leaves_serve]
    apply sub_write_of_incomparable
    rw [(RecordRef.request_path hq).2, childrenURL_path, accountURL_path, List.cons_append,
      List.append_assoc]
    intro hcmp
    exact huid (comparable_cons.mp hcmp).2.symm.of_append_right.symm

/-- Every record has a request, so paths that are apart come from keys that are. -/
theorem PathsSeparated.keysSeparated {uid : String} {s : Store} (hs : s.WellFormed)
    (h : PathsSeparated uid s) : KeysSeparated s := by
  have hkeys : ∀ r r' : RecordRef, r.In s → r'.In s → Unrelated r r' →
      ¬ Comparable (r.key s) (r'.key s) := by
    intro r r' hr hr' hunrelated
    obtain ⟨q, hq⟩ := RecordRef.exists_request uid hs hr
    obtain ⟨q', hq'⟩ := RecordRef.exists_request uid hs hr'
    have hpaths := h.apart r r' q q' hr hr' hunrelated hq hq'
    rwa [(RecordRef.request_path hq).2, (RecordRef.request_path hq').2, comparable_append_left]
      at hpaths
  constructor
  · intro c hc hnil
    have hr : (RecordRef.child c.objectID).In s := List.mem_map_of_mem hc
    obtain ⟨q, hq⟩ := RecordRef.exists_request uid hs hr
    apply h.root _ q hr hq
    rw [(RecordRef.request_path hq).2]
    simp [RecordRef.key, RecordRef.owner, RecordRef.partKey, hs.childKey_of_mem hc, hnil]
  · intro c hc d hd hcd hcmp
    apply hkeys (.child c.objectID) (.child d.objectID) (List.mem_map_of_mem hc)
      (List.mem_map_of_mem hd) (Or.inl hcd)
    simpa [RecordRef.key, RecordRef.owner, RecordRef.partKey, hs.childKey_of_mem hc,
      hs.childKey_of_mem hd] using hcmp
  · intro i hi j hj hchild hij hcmp
    obtain ⟨c, _, hic⟩ := (hs.item i hi).2
    apply hkeys (.item c.objectID i.objectID) (.item c.objectID j.objectID) ⟨i, hi, rfl, hic⟩
      ⟨j, hj, rfl, hchild.symm.trans hic⟩ (Or.inr ⟨rfl, rfl, by simpa using hij⟩)
    rw [RecordRef.key, RecordRef.key, RecordRef.owner, RecordRef.owner, comparable_append_left,
      RecordRef.partKey, RecordRef.partKey, hs.itemKey_of_mem hi, hs.itemKey_of_mem hj]
    exact comparable_cons.mpr ⟨rfl, hcmp⟩
  · intro l hl m hm hchild hlm hcmp
    obtain ⟨c, _, hlc⟩ := (hs.letter l hl).2
    apply hkeys (.letter c.objectID l.objectID) (.letter c.objectID m.objectID) ⟨l, hl, rfl, hlc⟩
      ⟨m, hm, rfl, hchild.symm.trans hlc⟩ (Or.inr ⟨rfl, rfl, by simpa using hlm⟩)
    rw [RecordRef.key, RecordRef.key, RecordRef.owner, RecordRef.owner, comparable_append_left,
      RecordRef.partKey, RecordRef.partKey, hs.letterKey_of_mem hl, hs.letterKey_of_mem hm]
    exact comparable_cons.mpr ⟨rfl, hcmp⟩

/-- The paths of an account's records are separated exactly when the texts of the records are
separated as keys: whatever the screens accept beyond that lets records overwrite one another. -/
theorem pathsSeparated_iff (uid : String) (s : LocalStore) :
    PathsSeparated uid s.graph ↔ KeysSeparated s.graph := by
  constructor
  · intro h
    exact h.keysSeparated s.wellFormed
  · intro h
    exact h.pathsSeparated uid s.wellFormed

/-- A letter without a title is put at the node of all letters of its child. -/
theorem untitled_letter_not_separated :
    ¬ ∀ (uid : String) (s : LocalStore), s.ScreenReachable → PathsSeparated uid s.graph := by
  intro h
  let ops := [doneBUtton 0 "Ann" "7", saveLetter 1 0 "Dear Santa" "toys", saveLetter 2 0 "" ""]
  obtain ⟨s, hs⟩ : ∃ s, Runs.run LocalStore.add .empty ops = some s := ⟨_, rfl⟩
  have hscreens : ∀ op ∈ ops, FromScreen op := by
    intro op hop
    simp only [ops, List.mem_cons, List.not_mem_nil, or_false] at hop
    rcases hop with rfl | rfl | rfl
    · exact .child _ _ _
    · exact .letter _ _ _ _
    · exact .letter _ _ _ _
  have hpaths := (h "uid" s ⟨ops, hscreens, hs⟩).apart (.letter 0 1) (.letter 0 2)
  obtain rfl := Option.some.inj hs
  exact hpaths _ _ ⟨Letter.added 1 0 "Dear Santa" "toys", by decide, rfl, rfl⟩
    ⟨Letter.added 2 0 "" "", by decide, rfl, rfl⟩ (by unfold Unrelated; decide) rfl rfl
    (Or.inr (by decide))

end SantaIWish
