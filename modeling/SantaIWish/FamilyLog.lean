import Mathlib.Data.List.DropRight
import SantaIWish.Families

/-!
# The family of a log of updates

What the fetches read is told from the log without replaying it. A child is read with
the age of its last own PUT, once every child that anything was put for has had one;
and of its items the last of each name is read, among those put since that PUT.
-/

namespace SantaIWish
open RealtimeDatabase
set_option autoImplicit false

namespace FamilyUpdate

/-- The name and age of a child's own PUT. -/
def ownPut : FamilyUpdate → Option (String × String)
  | child name age => some (name, age)
  | item _ _ => none
  | letter _ _ => none

def item? : FamilyUpdate → Option ItemRepresentation
  | item _ i => some i
  | _ => none

def letter? : FamilyUpdate → Option LetterRepresentation
  | letter _ l => some l
  | _ => none

theorem ownPut_name_iff (u : FamilyUpdate) {name : String} :
    u.ownPut.map Prod.fst = some name ↔ u.ownPut.isSome = true ∧ u.childName = name := by
  cases u <;> simp [ownPut, childName]

end FamilyUpdate

def ownPuts (log : List FamilyUpdate) : List (String × String) := log.filterMap FamilyUpdate.ownPut

/-- The updates since the last own PUT of a child. -/
def sincePut (name : String) (log : List FamilyUpdate) : List FamilyUpdate :=
  log.rtakeWhile fun u => u.ownPut.map Prod.fst ≠ some name

/-- The parts of one kind put for a child since its last own PUT. -/
def partsSince {A : Type} (part? : FamilyUpdate → Option A) (name : String) (log : List FamilyUpdate) :
    List A :=
  (sincePut name log).filterMap fun u => if u.childName = name then part? u else none

def itemsSince (name : String) (log : List FamilyUpdate) : List ItemRepresentation :=
  partsSince FamilyUpdate.item? name log

def lettersSince (name : String) (log : List FamilyUpdate) : List LetterRepresentation :=
  partsSince FamilyUpdate.letter? name log

/-- What the log makes of the child of a name. -/
def entryOf (name : String) (log : List FamilyUpdate) : ChildEntry :=
  Replay.valueOf FamilyUpdate.childName FamilyUpdate.update {} name log

/-! ## One more update -/

theorem entryOf_snoc (name : String) (log : List FamilyUpdate) (u : FamilyUpdate) :
    entryOf name (log ++ [u]) =
      if u.childName = name then u.update (entryOf name log) else entryOf name log := by
  split
  · rename_i h
    rw [← h]
    exact Replay.valueOf_snoc_self log u
  · rename_i h
    exact Replay.valueOf_snoc_of_ne h log

theorem ownPuts_snoc (log : List FamilyUpdate) (u : FamilyUpdate) :
    ownPuts (log ++ [u]) = ownPuts log ++ u.ownPut.toList := by
  rw [ownPuts, List.filterMap_append]
  cases u <;> rfl

theorem sincePut_snoc (name : String) (log : List FamilyUpdate) (u : FamilyUpdate) :
    sincePut name (log ++ [u]) =
      if u.ownPut.map Prod.fst = some name then [] else sincePut name log ++ [u] := by
  rw [sincePut, List.rtakeWhile_concat]
  by_cases h : u.ownPut.map Prod.fst = some name
  · simp [h]
  · simp [h, sincePut]

theorem partsSince_snoc {A : Type} (part? : FamilyUpdate → Option A) (name : String)
    (log : List FamilyUpdate) (u : FamilyUpdate) :
    partsSince part? name (log ++ [u]) =
      if u.ownPut.map Prod.fst = some name then []
      else partsSince part? name log ++ if u.childName = name then (part? u).toList else [] := by
  rw [partsSince, sincePut_snoc]
  split
  · rfl
  · rw [List.filterMap_append, partsSince]
    congr 1
    split
    · rename_i hname
      cases hpart : part? u <;> simp [hname, hpart]
    · rename_i hname
      simp [hname]

/-! ## The entry of a child -/

theorem entryOf_age (name : String) (log : List FamilyUpdate) :
    (entryOf name log).age = (Fields.lastPut (ownPuts log)).lookup name := by
  induction log using List.reverseRecOn with
  | nil => rfl
  | append_singleton log u ih =>
    rw [entryOf_snoc, ownPuts_snoc]
    cases u with
    | child name' age =>
      rw [FamilyUpdate.ownPut, Option.toList_some, Fields.lastPut_snoc, FamilyUpdate.childName]
      split
      · rename_i h
        subst h
        exact (Fields.lookup_upsert_self _ _ _).symm
      · rename_i h
        rw [Fields.lookup_upsert_of_ne fun he => h he.symm, ih]
    | item c i =>
      rw [FamilyUpdate.ownPut, Option.toList_none, List.append_nil, ← ih]
      split <;> rfl
    | letter c l =>
      rw [FamilyUpdate.ownPut, Option.toList_none, List.append_nil, ← ih]
      split <;> rfl

theorem entryOf_age_isSome {name : String} {log : List FamilyUpdate} :
    (∃ age, (entryOf name log).age = some age) ↔ name ∈ (ownPuts log).map Prod.fst := by
  rw [entryOf_age, ← Fields.mem_keys_lastPut]
  constructor
  · intro hh
    obtain ⟨age, hage⟩ := hh
    exact List.mem_map_of_mem ((Fields.mem_iff_lookup (Fields.nodup_lastPut _)).mpr hage)
  · exact Fields.exists_lookup_of_mem

/-- A kind of parts that its own updates add to and that the child's own PUT drops: what is there are
the parts put since that PUT. -/
theorem entryOf_parts {A : Type} (parts : ChildEntry → List (String × A))
    {part? : FamilyUpdate → Option A} {key : A → String} (hempty : parts {} = [])
    (hupdate : ∀ (u : FamilyUpdate) e, parts (u.update e) =
      if u.ownPut.isSome then [] else
        ((part? u).map fun a => Fields.upsert (key a) a (parts e)).getD (parts e))
    (name : String) (log : List FamilyUpdate) :
    parts (entryOf name log) = Fields.lastPut ((partsSince part? name log).map fun a => (key a, a)) := by
  induction log using List.reverseRecOn with
  | nil => exact hempty
  | append_singleton log u ih =>
    rw [entryOf_snoc, partsSince_snoc]
    by_cases hname : u.childName = name
    · rw [if_pos hname, if_pos hname, hupdate]
      by_cases hown : u.ownPut.isSome = true
      · rw [if_pos hown, if_pos (u.ownPut_name_iff.mpr ⟨hown, hname⟩)]
        rfl
      · rw [if_neg hown, if_neg fun h => hown (u.ownPut_name_iff.mp h).1, ih]
        cases part? u with
        | some a => rw [Option.toList_some, List.map_append, List.map_singleton, Fields.lastPut_snoc]; rfl
        | none => rw [Option.toList_none, List.append_nil]; rfl
    · rw [if_neg hname, if_neg hname, if_neg fun h => hname (u.ownPut_name_iff.mp h).2,
        List.append_nil, ih]

theorem entryOf_items (name : String) (log : List FamilyUpdate) :
    (entryOf name log).items = Fields.lastPut ((itemsSince name log).map fun i => (i.name, i)) := by
  apply entryOf_parts ChildEntry.items rfl
  intro u e
  cases u <;> rfl

theorem entryOf_letters (name : String) (log : List FamilyUpdate) :
    (entryOf name log).letters = Fields.lastPut ((lettersSince name log).map fun l => (l.title, l)) := by
  apply entryOf_parts ChildEntry.letters rfl
  intro u e
  cases u <;> rfl

/-! ## What is read from a log -/

/-- What fetching the kids gives once these updates have arrived. -/
structure KidsOfLog (log : List FamilyUpdate)
    (result : Except DecodingError (List ChildRepresentation)) : Prop where
  nothing : log = [] → result = .error .valueNotFound
  indexed : log ≠ [] → IndexKeys (log.map FamilyUpdate.childName) → result = .error .typeMismatch
  missing : ¬ IndexKeys (log.map FamilyUpdate.childName) →
    (∃ u ∈ log, u.childName ∉ (ownPuts log).map Prod.fst) → result = .error (.keyNotFound "name")
  read : ¬ IndexKeys (log.map FamilyUpdate.childName) →
    (∀ u ∈ log, u.childName ∈ (ownPuts log).map Prod.fst) → ∃ kids, result = .ok kids ∧
      kids.Perm ((Fields.lastPerKey Prod.fst (ownPuts log)).map fun put => ⟨put.1, put.2, [], []⟩)

/-- What fetching the items of a child gives once these updates have arrived. -/
structure WishlistOfLog (name : String) (log : List FamilyUpdate)
    (result : Except NetworkingError (Option (List ItemRepresentation))) : Prop where
  indexed : IndexKeys ((itemsSince name log).map ItemRepresentation.name) → result = .error .badDecode
  read : ¬ IndexKeys ((itemsSince name log).map ItemRepresentation.name) →
    ∃ items, result = .ok (some items) ∧
      items.Perm (Fields.lastPerKey ItemRepresentation.name (itemsSince name log))

namespace Family

theorem nodup_ofLog (log : List FamilyUpdate) : ((ofLog log).map Prod.fst).Nodup :=
  Replay.nodup_keys_replay log

theorem mem_names_ofLog {name : String} {log : List FamilyUpdate} :
    name ∈ (ofLog log).map Prod.fst ↔ name ∈ log.map FamilyUpdate.childName :=
  Replay.mem_keys_replay

theorem mem_ofLog {c : String × ChildEntry} {log : List FamilyUpdate} :
    c ∈ ofLog log ↔ c.1 ∈ log.map FamilyUpdate.childName ∧ c.2 = entryOf c.1 log :=
  Replay.mem_replay

theorem ofLog_snoc (log : List FamilyUpdate) (u : FamilyUpdate) :
    ofLog (log ++ [u]) = (ofLog log).apply u := Replay.replay_snoc log u

theorem lookup_ofLog (name : String) (log : List FamilyUpdate) :
    ((ofLog log).lookup name).getD {} = entryOf name log := by
  rw [ofLog, Replay.lookup_replay]
  split
  · rfl
  · rename_i h
    exact (Replay.valueOf_of_not_mem h).symm

theorem ofLog_isEmpty (log : List FamilyUpdate) : (ofLog log).isEmpty = log.isEmpty := by
  cases log with
  | nil => rfl
  | cons u log =>
    have hmem : u.childName ∈ (ofLog (u :: log)).map Prod.fst :=
      mem_names_ofLog.mpr List.mem_cons_self
    cases hfamily : ofLog (u :: log) with
    | nil => simp [hfamily] at hmem
    | cons c family => rfl

/-- The children that have had a PUT of their own, each with the age of the last one. -/
theorem ages_perm {log : List FamilyUpdate}
    (hall : ∀ u ∈ log, u.childName ∈ (ownPuts log).map Prod.fst) :
    ((ofLog log).map fun c => (c.1, c.2.age.getD "")).Perm (Fields.lastPut (ownPuts log)) := by
  have hkeys : ((ofLog log).map fun c => (c.1, c.2.age.getD "")).map Prod.fst =
      (ofLog log).map Prod.fst := by
    rw [List.map_map]
    rfl
  have hnodup := hkeys ▸ nodup_ofLog log
  refine (List.perm_ext_iff_of_nodup hnodup.of_map (Fields.nodup_lastPut _).of_map).mpr ?_
  intro e
  obtain ⟨name, age⟩ := e
  rw [Fields.mem_iff_lookup (Fields.nodup_lastPut _), ← entryOf_age]
  constructor
  · intro he
    obtain ⟨c, hc, hce⟩ := List.mem_map.mp he
    obtain ⟨rfl, rfl⟩ := Prod.mk.inj hce
    obtain ⟨hname, hentry⟩ := mem_ofLog.mp hc
    obtain ⟨u, hu, hun⟩ := List.mem_map.mp hname
    obtain ⟨age, hage⟩ := entryOf_age_isSome.mpr (hun ▸ hall u hu)
    rw [hentry, hage, Option.getD_some]
  · intro hage
    obtain ⟨put, hput, rfl⟩ := List.mem_map.mp (entryOf_age_isSome.mp ⟨age, hage⟩)
    obtain ⟨u, hu, huput⟩ := List.mem_filterMap.mp hput
    have hname : u.childName = put.1 :=
      (u.ownPut_name_iff.mp (by rw [huput, Option.map_some])).2
    exact List.mem_map.mpr ⟨(put.1, entryOf put.1 log),
      mem_ofLog.mpr ⟨List.mem_map.mpr ⟨u, hu, hname⟩, rfl⟩, by simp [hage]⟩

theorem kids_ofLog (log : List FamilyUpdate) : KidsOfLog log (ofLog log).kids := by
  have hindexed : Indexed (ofLog log) ↔ IndexKeys (log.map FamilyUpdate.childName) :=
    (indexed_iff (nodup_ofLog log)).trans (indexKeys_congr fun _ => mem_names_ofLog)
  have hnil : IndexKeys (([] : List FamilyUpdate).map FamilyUpdate.childName) := ⟨0, fun k => by simp⟩
  constructor
  · rintro rfl
    rfl
  · intro hne hindex
    rw [kids, ofLog_isEmpty, if_neg (by simpa using hne), if_pos (hindexed.mpr hindex)]
  · intro hindex hmissing
    have hne : ¬ log.isEmpty = true := by
      rintro h
      obtain rfl := List.isEmpty_iff.mp h
      exact hindex hnil
    rw [kids, ofLog_isEmpty, if_neg hne, if_neg fun h => hindex (hindexed.mp h)]
    apply Decoder.mapM_error
    · intro c _
      cases c.2.age with
      | some age => exact Or.inl ⟨_, rfl⟩
      | none => exact Or.inr rfl
    · obtain ⟨u, hu, hput⟩ := hmissing
      refine ⟨(u.childName, entryOf u.childName log),
        mem_ofLog.mpr ⟨List.mem_map_of_mem hu, rfl⟩, ?_⟩
      have hage : (entryOf u.childName log).age = none := by
        rw [Option.eq_none_iff_forall_ne_some]
        exact fun age hage => hput (entryOf_age_isSome.mp ⟨age, hage⟩)
      simp only [hage]
  · intro hindex hall
    have hne : ¬ log.isEmpty = true := by
      rintro h
      obtain rfl := List.isEmpty_iff.mp h
      exact hindex hnil
    refine ⟨(ofLog log).map fun c => ⟨c.1, c.2.age.getD "", [], []⟩, ?_, ?_⟩
    · rw [kids, ofLog_isEmpty, if_neg hne, if_neg fun h => hindex (hindexed.mp h),
        Decoder.mapM_ok_iff, List.forall₂_map_right_iff, List.forall₂_same]
      intro c hc
      obtain ⟨hname, hentry⟩ := mem_ofLog.mp hc
      obtain ⟨u, hu, hun⟩ := List.mem_map.mp hname
      obtain ⟨age, hage⟩ := entryOf_age_isSome.mpr (hun ▸ hall u hu)
      simp only [hentry, hage, Option.getD_some]
    · have hperm := (ages_perm hall).trans (Fields.lastPut_perm (ownPuts log))
      simpa [Function.comp_def] using
        hperm.map fun put : String × String => (⟨put.1, put.2, [], []⟩ : ChildRepresentation)

theorem wishlist_ofLog (name : String) (log : List FamilyUpdate) :
    WishlistOfLog name log ((ofLog log).wishlist name) := by
  have hperm := Fields.lastPut_perm ((itemsSince name log).map fun i => (i.name, i))
  have hlast : Fields.lastPerKey Prod.fst ((itemsSince name log).map fun i => (i.name, i)) =
      (Fields.lastPerKey ItemRepresentation.name (itemsSince name log)).map fun i => (i.name, i) :=
    Fields.lastPerKey_map (fun _ => rfl) _
  have hindexed : Indexed (Fields.lastPut ((itemsSince name log).map fun i => (i.name, i))) ↔
      IndexKeys ((itemsSince name log).map ItemRepresentation.name) := by
    refine (indexed_iff (Fields.nodup_lastPut _)).trans (indexKeys_congr fun k => ?_)
    rw [Fields.mem_keys_lastPut, List.map_map]
    rfl
  have hitems : ((ofLog log).lookup name).getD {} = entryOf name log := lookup_ofLog name log
  constructor
  · intro hindex
    rw [wishlist, hitems, entryOf_items, if_pos (hindexed.mpr hindex)]
  · intro hindex
    refine ⟨_, by rw [wishlist, hitems, entryOf_items, if_neg fun h => hindex (hindexed.mp h)], ?_⟩
    have hvalues := (hlast ▸ hperm).map Prod.snd
    rwa [List.map_map, List.map_id''] at hvalues
    exact fun _ => rfl

end Family

end SantaIWish
