import SantaIWish.Controller.Records

/-!
# Uploading a family in bulk and child by child

`put(parentRepresentation:)` writes the children as a JSON array, which the
server keeps under the keys 0, 1, ..., n-1 and answers as an array again;
`putChild` writes each child under its name. `fetchKidsFromServer` decodes an
object of children, and in each child objects of letters and items.
-/

namespace SantaIWish
open RealtimeDatabase
set_option autoImplicit false

/-- The request `putChild` sends for a child of this representation. -/
def putChildRequest (id : String) (rep : ChildRepresentation) : URLRequest :=
  .put ((childURL id rep.name).appendingPathExtension "json") rep.encode

theorem putChild_request (s : Store) (child : ObjectID) (id : String) :
    (putChild s child (some id) false).request =
      (s.childRepresentation child).map (putChildRequest id) :=
  request_putChild s child id

def putInBulk (id : String) (p : ParentRepresentation) (t : Json) : Json :=
  deliver (put p id false).request.toList t

def putOneByOne (id : String) (children : List ChildRepresentation) (t : Json) : Json :=
  deliver (children.map (putChildRequest id)) t

/-- What `fetchKidsFromServer` decodes from the server's answer. -/
def kidsFetched (id : String) (t : Json) : Except DecodingError (List ChildRepresentation) :=
  decodeKids (.json (RealtimeDatabase.get (childrenURL id).pathComponents t))

/-- The completion of `fetchKidsFromServer` tells whether its decoding failed, and how. -/
theorem fetchKids_completions (id : String) (t : Json) :
    (fetchKidsFromServer (some id)).task.map (fun task => task.2 (task.1.answer t)) =
      some [match kidsFetched id t with
        | .ok _ => none
        | .error error => some error.nsError] := rfl

/-- The same children up to order, or the same error for the completion. -/
def SameResult : Except DecodingError (List ChildRepresentation) →
    Except DecodingError (List ChildRepresentation) → Prop
  | .ok kids, .ok kids' => kids.Perm kids'
  | .error error, .error error' => error.nsError = error'.nsError
  | _, _ => False

def ChildRepresentation.Bare (c : ChildRepresentation) : Prop := c.letters = [] ∧ c.items = []

/-! ## Arrays in the tree -/

/-- An array of which every element is kept has the index keys from its first index on. -/
theorem keys_storedElements {xs : List Json} (h : ∀ x ∈ xs, (stored x).isNull = false) (i : Nat) :
    (storedElements i xs).map Prod.fst = (List.range' i xs.length).map fun j => toString j := by
  induction xs generalizing i with
  | nil => rfl
  | cons x xs ih =>
    obtain ⟨hx, hxs⟩ := List.forall_mem_cons.mp h
    rw [storedElements, keep, hx, List.length_cons, List.range'_succ]
    exact congrArg (toString i :: ·) (ih hxs (i + 1))

theorem rendered_array {xs : List Json} (h : ∀ x ∈ xs, (stored x).isNull = false) (hne : xs ≠ []) :
    ∃ ys, rendered (stored (.arr xs)) = .arr ys := by
  have hkeys := keys_storedElements h 0
  rw [← List.range_eq_range'] at hkeys
  have hfs : storedElements 0 xs ≠ [] := by
    intro hnil
    rw [hnil] at hkeys
    exact hne (List.length_eq_zero_iff.mp (by simpa using congrArg List.length hkeys.symm))
  rw [stored, node_of_ne_nil hfs]
  refine rendered_indexKeys ?_ ⟨xs.length, fun k => ?_⟩
  · rw [hkeys]
    exact nodup_indices _
  · rw [hkeys, mem_indices]

theorem rendered_array_map {A : Type} {encode : A → Json}
    (h : ∀ a, (stored (encode a)).isNull = false) {as : List A} (hne : as ≠ []) :
    ∃ ys, rendered (stored (.arr (as.map encode))) = .arr ys := by
  refine rendered_array ?_ (by simpa using hne)
  intro x hx
  obtain ⟨a, _, rfl⟩ := List.mem_map.mp hx
  exact h a

theorem isNull_of_rendered_arr {j : Json} {ys : List Json} (h : rendered j = .arr ys) :
    j.isNull = false := by
  cases j with
  | null => cases h
  | scalar v => rfl
  | arr xs => rfl
  | obj fs => rfl

/-! ## A child as the server answers it -/

theorem stored_child (c : ChildRepresentation) : stored c.encode =
    .obj (("name", .str c.name) :: ("age", .str c.age) ::
      keep "letters" (stored (.arr (c.letters.map LetterRepresentation.encode)))
        (keep "items" (stored (.arr (c.items.map ItemRepresentation.encode))) [])) := rfl

/-- The node of a child has no index keys. -/
theorem rendered_child (name age : String) (letters items : Json) :
    rendered (.obj (("name", .str name) :: ("age", .str age) ::
      keep "letters" letters (keep "items" items []))) =
    .obj (("name", .str name) :: ("age", .str age) ::
      (keep "letters" letters (keep "items" items [])).map fun f => (f.1, rendered f.2)) := by
  cases hletters : letters.isNull <;> cases hitems : items.isNull <;>
    simp only [keep, hletters, hitems, if_true, if_false, Bool.false_eq_true] <;> rfl

theorem decode_stored_bare {c : ChildRepresentation} (h : c.Bare) :
    ChildRepresentation.decoder (rendered (stored c.encode)) = .ok c := by
  obtain ⟨name, age, letters, items⟩ := c
  obtain ⟨rfl, rfl⟩ : letters = [] ∧ items = [] := h
  rw [stored_new_child]
  rfl

/-- The letters or the items come back as an array, which the decoder of a child refuses. -/
theorem decode_stored_not_bare {c : ChildRepresentation} (h : ¬ c.Bare) :
    ChildRepresentation.decoder (rendered (stored c.encode)) = .error .typeMismatch := by
  rw [stored_child, rendered_child]
  by_cases hletters : c.letters = []
  · have hitems : c.items ≠ [] := fun hitems => h ⟨hletters, hitems⟩
    obtain ⟨ys, hys⟩ := rendered_array_map stored_item_isNull hitems
    have hnone : stored (.arr (c.letters.map LetterRepresentation.encode)) = .null := by
      rw [hletters]
      rfl
    rw [hnone, keep, keep, isNull_of_rendered_arr hys]
    simp only [Json.isNull, if_true, if_false, Bool.false_eq_true, List.map_cons, List.map_nil, hys]
    rfl
  · obtain ⟨ys, hys⟩ := rendered_array_map stored_letter_isNull hletters
    rw [keep, isNull_of_rendered_arr hys]
    simp only [if_false, Bool.false_eq_true, List.map_cons, hys]
    rfl

/-! ## Child by child -/

def ChildRepresentation.entry (c : ChildRepresentation) : String × Json := (c.name, stored c.encode)

theorem puts_of_children (id : String) {children : List ChildRepresentation}
    (hvalid : ∀ c ∈ children, validKey c.name = true) :
    List.Forall₂ (URLRequest.Puts (childrenURL id).pathComponents)
      (children.map (putChildRequest id)) (children.map ChildRepresentation.entry) := by
  rw [List.forall₂_map_left_iff, List.forall₂_map_right_iff, List.forall₂_same]
  intro c hc
  refine ⟨⟨rfl, stored_child_isNull c⟩, ?_, rfl⟩
  have hpath : (putChildRequest id c).path = (childURL id c.name).pathComponents := rfl
  rw [hpath, childURL_path, pathSegments_of_validKey (hvalid c hc)]
  rfl

theorem childrenNode_oneByOne {id : String} {t : Json}
    (hempty : t.get (childrenURL id).pathComponents = node []) {children : List ChildRepresentation}
    (hvalid : ∀ c ∈ children, validKey c.name = true)
    (hdistinct : (children.map ChildRepresentation.name).Nodup) :
    ∃ order : List ChildRepresentation, order.Perm children ∧
      (putOneByOne id children t).get (childrenURL id).pathComponents =
        node (order.map ChildRepresentation.entry) := by
  have hnode := get_deliver (puts_of_children id hvalid) hempty
  have hkeys : ((children.map ChildRepresentation.entry).map Prod.fst).Nodup := by
    rw [List.map_map]
    exact hdistinct
  have hperm := Fields.foldl_upsert_perm (children.map ChildRepresentation.entry)
  rw [Fields.lastPerKey_of_nodup hkeys] at hperm
  obtain ⟨order, horder, hfs⟩ := Fields.exists_map_eq_of_perm hperm
  exact ⟨order, horder, hnode.trans (congrArg node hfs)⟩

section OneByOne
variable {id : String} {t : Json} {children : List ChildRepresentation}

/-- The node is answered as an array, or as an object of which each child is decoded in turn. -/
theorem kidsFetched_oneByOne (hempty : t.get (childrenURL id).pathComponents = node [])
    (hvalid : ∀ c ∈ children, validKey c.name = true)
    (hdistinct : (children.map ChildRepresentation.name).Nodup) (hne : children ≠ []) :
    (IndexKeys (children.map ChildRepresentation.name) →
      kidsFetched id (putOneByOne id children t) = .error .typeMismatch) ∧
    (¬ IndexKeys (children.map ChildRepresentation.name) →
      ∃ order : List ChildRepresentation, order.Perm children ∧
        kidsFetched id (putOneByOne id children t) =
          order.mapM fun c => ChildRepresentation.decoder (rendered (stored c.encode))) := by
  obtain ⟨order, hperm, hnode⟩ := childrenNode_oneByOne hempty hvalid hdistinct
  have hkeys : (order.map ChildRepresentation.entry).map Prod.fst =
      order.map ChildRepresentation.name := by
    rw [List.map_map]
    rfl
  have hnodup : ((order.map ChildRepresentation.entry).map Prod.fst).Nodup := by
    rw [hkeys]
    exact ((hperm.map _).nodup_iff).mpr hdistinct
  have hindex : IndexKeys ((order.map ChildRepresentation.entry).map Prod.fst) ↔
      IndexKeys (children.map ChildRepresentation.name) := by
    rw [hkeys]
    exact indexKeys_congr fun _ => (hperm.map _).mem_iff
  have hfs : order.map ChildRepresentation.entry ≠ [] := by
    rw [ne_eq, List.map_eq_nil_iff]
    rintro rfl
    exact hne hperm.nil_eq.symm
  rw [kidsFetched, RealtimeDatabase.get, hnode, node_of_ne_nil hfs, ← hindex]
  constructor
  · intro h
    obtain ⟨ys, hys⟩ := rendered_indexKeys hnodup h
    rw [hys]
    rfl
  · intro h
    refine ⟨order, hperm, ?_⟩
    rw [rendered_of_not_indexKeys hnodup h, decodeKids_obj, List.map_map, List.mapM_map]
    rfl

theorem kidsFetched_oneByOne_error (hempty : t.get (childrenURL id).pathComponents = node [])
    (hvalid : ∀ c ∈ children, validKey c.name = true)
    (hdistinct : (children.map ChildRepresentation.name).Nodup) (hne : children ≠ [])
    (h : IndexKeys (children.map ChildRepresentation.name) ∨ ∃ c ∈ children, ¬ c.Bare) :
    kidsFetched id (putOneByOne id children t) = .error .typeMismatch := by
  obtain ⟨hfetched, hfetchedObj⟩ := kidsFetched_oneByOne hempty hvalid hdistinct hne
  by_cases hindex : IndexKeys (children.map ChildRepresentation.name)
  · exact hfetched hindex
  · obtain ⟨order, hperm, hread⟩ := hfetchedObj hindex
    obtain ⟨c, hc, hbad⟩ := h.resolve_left hindex
    rw [hread]
    refine Decoder.mapM_error ?_ ⟨c, hperm.symm.subset hc, decode_stored_not_bare hbad⟩
    intro d _
    by_cases hd : d.Bare
    · exact Or.inl ⟨d, decode_stored_bare hd⟩
    · exact Or.inr (decode_stored_not_bare hd)

theorem kidsFetched_oneByOne_ok (hempty : t.get (childrenURL id).pathComponents = node [])
    (hvalid : ∀ c ∈ children, validKey c.name = true)
    (hdistinct : (children.map ChildRepresentation.name).Nodup)
    (hindex : ¬ IndexKeys (children.map ChildRepresentation.name)) (hbare : ∀ c ∈ children, c.Bare) :
    ∃ kids, kidsFetched id (putOneByOne id children t) = .ok kids := by
  have hne : children ≠ [] := by
    rintro rfl
    exact hindex ⟨0, fun k => by simp⟩
  obtain ⟨order, hperm, hread⟩ := (kidsFetched_oneByOne hempty hvalid hdistinct hne).2 hindex
  refine ⟨order, hread.trans ?_⟩
  rw [Decoder.mapM_ok_iff, List.forall₂_same]
  exact fun c hc => decode_stored_bare (hbare c (hperm.subset hc))

end OneByOne

/-! ## In bulk -/

/-- The node of the children is what the server keeps of the array. -/
theorem childrenNode_bulk (id : String) (p : ParentRepresentation) (t : Json) :
    (putInBulk id p t).get (childrenURL id).pathComponents =
      (stored p.encode).field "children" := by
  let q : URLRequest := .put ((accountURL id).appendingPathExtension "json") p.encode
  have hq : q.IsWrite := ⟨rfl, rfl⟩
  have htree : putInBulk id p t = q.serve t := rfl
  have hpath : (childrenURL id).pathComponents = q.path ++ ["children"] := by
    have haccount : q.path = (accountURL id).pathComponents := rfl
    rw [haccount, childrenURL_path, accountURL_path, List.cons_append]
  have hget := get_replaceAt_append q.path [] q.content t
  rw [List.append_nil] at hget
  rw [htree, hpath, hq.serve_eq, Json.get_append, hget]
  rfl

theorem kidsFetched_bulk_none {p : ParentRepresentation} (h : p.children.getD [] = []) (id : String)
    (t : Json) : kidsFetched id (putInBulk id p t) = .error .valueNotFound := by
  obtain ⟨name, children⟩ := p
  rw [kidsFetched, RealtimeDatabase.get, childrenNode_bulk]
  cases children with
  | none => rfl
  | some children =>
    obtain rfl : children = [] := h
    rfl

theorem kidsFetched_bulk_some {p : ParentRepresentation} (h : p.children.getD [] ≠ []) (id : String)
    (t : Json) : kidsFetched id (putInBulk id p t) = .error .typeMismatch := by
  obtain ⟨name, children⟩ := p
  rw [kidsFetched, RealtimeDatabase.get, childrenNode_bulk]
  cases children with
  | none => exact absurd rfl h
  | some children =>
    have hne : children ≠ [] := h
    obtain ⟨ys, hys⟩ := rendered_array_map stored_child_isNull hne
    have hfield : (stored (ParentRepresentation.encode ⟨name, some children⟩)).field "children" =
        stored (.arr (children.map ChildRepresentation.encode)) := by
      have hstored : stored (ParentRepresentation.encode ⟨name, some children⟩) =
          .obj (("name", .str name) ::
            keep "children" (stored (.arr (children.map ChildRepresentation.encode))) []) := rfl
      rw [hstored, keep, isNull_of_rendered_arr hys]
      rfl
    rw [hfield, hys]
    rfl

/-! ## The two uploads compared -/

/-- The two uploads are read back alike exactly when the names of the children are index keys, which
no children at all are too, or some child has a letter or an item. -/
theorem bulk_same_iff (id : String) (p : ParentRepresentation) (t : Json)
    (hempty : t.get (childrenURL id).pathComponents = .null)
    (hvalid : ∀ c ∈ p.children.getD [], validKey c.name = true)
    (hdistinct : ((p.children.getD []).map ChildRepresentation.name).Nodup) :
    SameResult (kidsFetched id (putInBulk id p t))
        (kidsFetched id (putOneByOne id (p.children.getD []) t)) ↔
      IndexKeys ((p.children.getD []).map ChildRepresentation.name) ∨
        ∃ c ∈ p.children.getD [], ¬ c.Bare := by
  by_cases hne : p.children.getD [] = []
  · have hsingle : kidsFetched id (putOneByOne id [] t) = .error .valueNotFound := by
      rw [kidsFetched, RealtimeDatabase.get, putOneByOne]
      exact congrArg (fun j => decodeKids (.json (rendered j))) hempty
    rw [kidsFetched_bulk_none hne, hne, hsingle]
    exact iff_of_true rfl (Or.inl ⟨0, fun k => by simp⟩)
  · rw [kidsFetched_bulk_some hne]
    by_cases h : IndexKeys ((p.children.getD []).map ChildRepresentation.name) ∨
        ∃ c ∈ p.children.getD [], ¬ c.Bare
    · rw [kidsFetched_oneByOne_error hempty hvalid hdistinct hne h]
      exact iff_of_true rfl h
    · obtain ⟨hindex, hbare⟩ := not_or.mp h
      obtain ⟨kids, hkids⟩ := kidsFetched_oneByOne_ok hempty hvalid hdistinct hindex
        (by simpa using hbare)
      rw [hkids]
      exact iff_of_false (fun hsame => hsame) h

theorem family_with_letter_same : ∃ p : ParentRepresentation,
    p.children = some [⟨"Ann", "7", [⟨"Hi", "Santa"⟩], []⟩] ∧
      SameResult (kidsFetched "uid" (putInBulk "uid" p .null))
        (kidsFetched "uid" (putOneByOne "uid" (p.children.getD []) .null)) := by
  obtain ⟨p, hp⟩ : ∃ p : ParentRepresentation,
      p.children = some [⟨"Ann", "7", [⟨"Hi", "Santa"⟩], []⟩] := ⟨⟨"Lee", _⟩, rfl⟩
  have hvalid : ∀ c ∈ p.children.getD [], validKey c.name = true := by
    rw [hp]
    decide
  have hdistinct : ((p.children.getD []).map ChildRepresentation.name).Nodup := by
    rw [hp]
    decide
  have hletter : ∃ c ∈ p.children.getD [], ¬ c.Bare := by
    rw [hp]
    exact ⟨_, List.mem_cons_self, fun hbare => absurd hbare.1 (by decide)⟩
  exact ⟨p, hp, (bulk_same_iff "uid" p .null rfl hvalid hdistinct).mpr (Or.inr hletter)⟩

/-- Ann alone can be fetched after her own PUT, and not after that of her family. -/
theorem ann_in_bulk_not_fetched :
    ¬ ∀ (id : String) (p : ParentRepresentation) (t : Json),
      t.get (childrenURL id).pathComponents = .null →
      (∀ c ∈ p.children.getD [], validKey c.name = true) →
      ((p.children.getD []).map ChildRepresentation.name).Nodup →
      SameResult (kidsFetched id (putInBulk id p t))
        (kidsFetched id (putOneByOne id (p.children.getD []) t)) := by
  intro h
  obtain ⟨p, hp⟩ : ∃ p : ParentRepresentation, p.children.getD [] = [⟨"Ann", "7", [], []⟩] :=
    ⟨⟨"Lee", some [⟨"Ann", "7", [], []⟩]⟩, rfl⟩
  have hvalid : ∀ c ∈ p.children.getD [], validKey c.name = true := by
    rw [hp]
    decide
  have hdistinct : ((p.children.getD []).map ChildRepresentation.name).Nodup := by
    rw [hp]
    decide
  have hindex : ¬ IndexKeys ((p.children.getD []).map ChildRepresentation.name) := by
    rw [hp]
    exact not_indexKeys (by decide) (by decide)
  have hbare : ∀ c ∈ p.children.getD [], c.Bare := by
    rw [hp]
    intro c hc
    obtain rfl := List.mem_singleton.mp hc
    exact ⟨rfl, rfl⟩
  have hsame := h "uid" p .null rfl hvalid hdistinct
  have hempty : Json.get (childrenURL "uid").pathComponents .null = node [] := rfl
  obtain ⟨kids, hkids⟩ := kidsFetched_oneByOne_ok hempty hvalid hdistinct hindex hbare
  rw [kidsFetched_bulk_some (by simp [hp]), hkids] at hsame
  exact hsame

end SantaIWish
