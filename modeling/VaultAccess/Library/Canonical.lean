import VaultAccess.Library.Text
import VaultAccess.Library.Unambiguous

/-!
# The value of a JSON document and its canonical text

What a document says does not depend on the order of the members of its objects: an object is
a map from names to values. Sorting the members of every object gives one document for each
value, so that the text of the sorted document tells exactly the value.
-/

set_option autoImplicit false

namespace VaultAccess.Library.Json

open VaultAccess.Library.Text

/-- What a document says. -/
inductive Value where
  | null
  | bool (value : Bool)
  | int (value : Int)
  | str (value : String)
  | arr (items : List Value)
  | obj (members : String → Option Value)

mutual

/-- The value of a document; of two members with one name the first counts. -/
def meaning : Json → Value
  | null => .null
  | bool b => .bool b
  | int n => .int n
  | str s => .str s
  | arr items => .arr (meanings items)
  | obj members => .obj (meaningOf members)

def meanings : List Json → List Value
  | [] => []
  | item :: rest => meaning item :: meanings rest

/-- The value of a member. -/
def meaningOf : List (String × Json) → String → Option Value
  | [], _ => none
  | (name, value) :: rest, key => if key = name then some (meaning value) else meaningOf rest key

end

mutual

/-- No object has two members with one name. -/
def Distinct : Json → Prop
  | arr items => DistinctItems items
  | obj members => (members.map Prod.fst).Nodup ∧ DistinctMembers members
  | _ => True

def DistinctItems : List Json → Prop
  | [] => True
  | item :: rest => Distinct item ∧ DistinctItems rest

def DistinctMembers : List (String × Json) → Prop
  | [] => True
  | (_, value) :: rest => Distinct value ∧ DistinctMembers rest

end

mutual

/-- The document with the members of every object in the order of their names. -/
def sorted : Json → Json
  | null => .null
  | bool b => .bool b
  | int n => .int n
  | str s => .str s
  | arr items => .arr (sortedItems items)
  | obj members => .obj (sortByKey Prod.fst (sortedMembers members))

def sortedItems : List Json → List Json
  | [] => []
  | item :: rest => sorted item :: sortedItems rest

def sortedMembers : List (String × Json) → List (String × Json)
  | [] => []
  | (name, value) :: rest => (name, sorted value) :: sortedMembers rest

end

/-! ## Lists of members -/

theorem sortedMembers_eq (members : List (String × Json)) :
    sortedMembers members = members.map fun member => (member.1, sorted member.2) := by
  induction members with
  | nil => rfl
  | cons member rest ih => rw [sortedMembers, ih, List.map_cons]

theorem names_sortedMembers (members : List (String × Json)) :
    (sortedMembers members).map Prod.fst = members.map Prod.fst := by
  rw [sortedMembers_eq, List.map_map]
  rfl

theorem distinctMembers_iff (members : List (String × Json)) :
    DistinctMembers members ↔ ∀ member ∈ members, Distinct member.2 := by
  induction members with
  | nil => simp [DistinctMembers]
  | cons member rest ih => simp [DistinctMembers, ih]

/-- INTERNAL: what a map says of a name is the value of a member with the name. -/
theorem exists_of_meaningOf {members : List (String × Json)} {name : String} {value : Value}
    (h : meaningOf members name = some value) : ∃ j, (name, j) ∈ members ∧ meaning j = value := by
  induction members with
  | nil => simp [meaningOf] at h
  | cons member rest ih =>
    obtain ⟨first, j⟩ := member
    rw [meaningOf] at h
    split_ifs at h with hname
    · subst hname
      exact ⟨j, List.mem_cons_self, Option.some.inj h⟩
    · obtain ⟨j', hmem, hvalue⟩ := ih h
      exact ⟨j', List.mem_cons_of_mem _ hmem, hvalue⟩

/-- INTERNAL: where the names are distinct, the map tells every member. -/
theorem meaningOf_of_mem {members : List (String × Json)} (h : (members.map Prod.fst).Nodup)
    {name : String} {j : Json} (hmem : (name, j) ∈ members) :
    meaningOf members name = some (meaning j) := by
  induction members with
  | nil => simp at hmem
  | cons member rest ih =>
    obtain ⟨first, j'⟩ := member
    rw [List.map_cons, List.nodup_cons] at h
    rw [meaningOf]
    rcases List.mem_cons.mp hmem with heq | hrest
    · obtain ⟨rfl, rfl⟩ := Prod.mk.inj heq
      rw [if_pos rfl]
    · have hne : name ≠ first := by
        intro heq
        exact h.1 (heq ▸ List.mem_map.mpr ⟨(name, j), hrest, rfl⟩)
      rw [if_neg hne, ih h.2 hrest]

/-- INTERNAL: a name the map does not have is the name of no member. -/
theorem meaningOf_eq_none {members : List (String × Json)} {name : String}
    (h : name ∉ members.map Prod.fst) : meaningOf members name = none := by
  cases hvalue : meaningOf members name with
  | none => rfl
  | some value =>
    obtain ⟨j, hmem, -⟩ := exists_of_meaningOf hvalue
    exact absurd (List.mem_map_of_mem hmem) h

/-- INTERNAL: the map does not depend on the order of the members. -/
theorem meaningOf_perm {members members' : List (String × Json)} (hperm : members.Perm members')
    (h : (members.map Prod.fst).Nodup) : meaningOf members = meaningOf members' := by
  have h' : (members'.map Prod.fst).Nodup := (hperm.map Prod.fst).nodup_iff.mp h
  funext name
  by_cases hname : name ∈ members.map Prod.fst
  · obtain ⟨⟨_, j⟩, hmem, rfl⟩ := List.mem_map.mp hname
    rw [meaningOf_of_mem h hmem, meaningOf_of_mem h' (hperm.mem_iff.mp hmem)]
  · have hname' : name ∉ members'.map Prod.fst := by rwa [← (hperm.map Prod.fst).mem_iff]
    rw [meaningOf_eq_none hname, meaningOf_eq_none hname']

/-- INTERNAL: the first of two lists that has a name decides. -/
theorem meaningOf_append (front back : List (String × Json)) (key : String) :
    meaningOf (front ++ back) key = (meaningOf front key).or (meaningOf back key) := by
  induction front with
  | nil => simp [meaningOf]
  | cons member rest ih =>
    obtain ⟨name, value⟩ := member
    rw [List.cons_append, meaningOf, meaningOf]
    split_ifs
    · rfl
    · exact ih

theorem meanings_eq (items : List Json) : meanings items = items.map meaning := by
  induction items with
  | nil => rfl
  | cons item rest ih => rw [meanings, ih, List.map_cons]

/-! ## Sorting keeps the value -/

mutual

/-- Sorting the members keeps what a document says. -/
theorem meaning_sorted (j : Json) (h : Distinct j) : meaning (sorted j) = meaning j := by
  match j with
  | null => rfl
  | bool _ => rfl
  | int _ => rfl
  | str _ => rfl
  | arr items =>
    rw [Distinct] at h
    rw [sorted, meaning, meaning, meanings_sortedItems items h]
  | obj members =>
    rw [Distinct] at h
    have hnames : ((sortedMembers members).map Prod.fst).Nodup := by
      rw [names_sortedMembers]
      exact h.1
    rw [sorted, meaning, meaning, ← meaningOf_sortedMembers members h.2]
    exact congrArg Value.obj (meaningOf_perm (perm_sortByKey _ _).symm hnames).symm

theorem meanings_sortedItems (items : List Json) (h : DistinctItems items) :
    meanings (sortedItems items) = meanings items := by
  match items with
  | [] => rfl
  | item :: rest =>
    rw [DistinctItems] at h
    rw [sortedItems, meanings, meanings, meaning_sorted item h.1, meanings_sortedItems rest h.2]

theorem meaningOf_sortedMembers (members : List (String × Json)) (h : DistinctMembers members) :
    meaningOf (sortedMembers members) = meaningOf members := by
  match members with
  | [] => rfl
  | (name, value) :: rest =>
    rw [DistinctMembers] at h
    funext key
    rw [sortedMembers, meaningOf, meaningOf, meaning_sorted value h.1,
      meaningOf_sortedMembers rest h.2]

end

/-! ## One sorted document for each value -/

/-- INTERNAL: sorted members with distinct names are given by what they are. -/
theorem sortByKey_eq_of_mem_iff {members members' : List (String × Json)}
    (h : (members.map Prod.fst).Nodup) (h' : (members'.map Prod.fst).Nodup)
    (hmem : ∀ member, member ∈ members ↔ member ∈ members') :
    sortByKey Prod.fst members = sortByKey Prod.fst members' := by
  have hperm : members.Perm members' :=
    (List.perm_ext_iff_of_nodup (List.Nodup.of_map _ h) (List.Nodup.of_map _ h')).mpr hmem
  have hsorted : (sortByKey Prod.fst members).Perm (sortByKey Prod.fst members') :=
    ((perm_sortByKey _ _).trans hperm).trans (perm_sortByKey _ _).symm
  refine hsorted.eq_of_pairwise (fun a b ha hb hab hba => ?_) (pairwise_sortByKey _ _)
    (pairwise_sortByKey _ _)
  have ha' : a ∈ members := (perm_sortByKey _ _).mem_iff.mp ha
  have hb' : b ∈ members := (hmem b).mpr ((perm_sortByKey _ _).mem_iff.mp hb)
  exact List.inj_on_of_nodup_map h ha' hb' (le_antisymm hab hba)

mutual

/-- **Documents that say the same are the same when sorted.** -/
theorem sorted_eq_of_meaning (j j' : Json) (h : Distinct j) (h' : Distinct j')
    (heq : meaning j = meaning j') : sorted j = sorted j' := by
  match j with
  | null =>
    cases j' with
    | null => rfl
    | _ => simp [meaning] at heq
  | bool b =>
    cases j' with
    | bool b' =>
      rw [meaning, meaning] at heq
      rw [Value.bool.inj heq]
    | _ => simp [meaning] at heq
  | int n =>
    cases j' with
    | int n' =>
      rw [meaning, meaning] at heq
      rw [Value.int.inj heq]
    | _ => simp [meaning] at heq
  | str s =>
    cases j' with
    | str s' =>
      rw [meaning, meaning] at heq
      rw [Value.str.inj heq]
    | _ => simp [meaning] at heq
  | arr items =>
    cases j' with
    | arr items' =>
      rw [Distinct] at h h'
      rw [meaning, meaning] at heq
      rw [sorted, sorted, sortedItems_eq_of_meanings items items' h h' (Value.arr.inj heq)]
    | _ => simp [meaning] at heq
  | obj members =>
    cases j' with
    | obj members' =>
      rw [Distinct] at h h'
      rw [meaning, meaning] at heq
      have hmap := congrFun (Value.obj.inj heq)
      have hsame := sorted_eq_of_mem members h.2
      have hall' := (distinctMembers_iff members').mp h'.2
      have hmem : ∀ member, member ∈ sortedMembers members ↔ member ∈ sortedMembers members' := by
        intro member
        rw [sortedMembers_eq, sortedMembers_eq, List.mem_map, List.mem_map]
        constructor
        · rintro ⟨⟨name, value⟩, hin, rfl⟩
          have hvalue := (hmap name).symm.trans (meaningOf_of_mem h.1 hin)
          obtain ⟨value', hin', hmeaning⟩ := exists_of_meaningOf hvalue
          have hsorted := hsame _ hin value' (hall' _ hin') hmeaning.symm
          exact ⟨(name, value'), hin', by rw [hsorted]⟩
        · rintro ⟨⟨name, value'⟩, hin', rfl⟩
          have hvalue := (hmap name).trans (meaningOf_of_mem h'.1 hin')
          obtain ⟨value, hin, hmeaning⟩ := exists_of_meaningOf hvalue
          have hsorted := hsame _ hin value' (hall' _ hin') hmeaning
          exact ⟨(name, value), hin, by rw [hsorted]⟩
      rw [sorted, sorted]
      apply congrArg Json.obj
      apply sortByKey_eq_of_mem_iff _ _ hmem
      · rw [names_sortedMembers]
        exact h.1
      · rw [names_sortedMembers]
        exact h'.1
    | _ => simp [meaning] at heq

theorem sortedItems_eq_of_meanings (items items' : List Json) (h : DistinctItems items)
    (h' : DistinctItems items') (heq : meanings items = meanings items') :
    sortedItems items = sortedItems items' := by
  match items, items' with
  | [], [] => rfl
  | [], _ :: _ => simp [meanings] at heq
  | _ :: _, [] => simp [meanings] at heq
  | item :: rest, item' :: rest' =>
    rw [DistinctItems] at h h'
    rw [meanings, meanings, List.cons.injEq] at heq
    rw [sortedItems, sortedItems, sorted_eq_of_meaning item item' h.1 h'.1 heq.1,
      sortedItems_eq_of_meanings rest rest' h.2 h'.2 heq.2]

theorem sorted_eq_of_mem (members : List (String × Json)) (h : DistinctMembers members) :
    ∀ member ∈ members, ∀ j', Distinct j' → meaning member.2 = meaning j' →
      sorted member.2 = sorted j' := by
  match members with
  | [] => simp
  | (name, value) :: rest =>
    rw [DistinctMembers] at h
    intro member hmem j' h' heq
    rcases List.mem_cons.mp hmem with hfirst | hrest
    · rw [hfirst] at heq ⊢
      exact sorted_eq_of_meaning value j' h.1 h' heq
    · exact sorted_eq_of_mem rest h.2 member hrest j' h' heq

end

/-! ## The text of a sorted document -/

/-- The items of an array, separated by commas. -/
theorem renderItems_eq (items : List Json) : renderItems items = [','].intercalate (items.map render) := by
  induction items with
  | nil => rfl
  | cons item rest ih =>
    cases rest with
    | nil => simp [renderItems, List.intercalate]
    | cons next rest => simp [renderItems, ih, List.intercalate]

/-- The members of an object, separated by commas. -/
theorem renderMembers_eq (members : List (String × Json)) : renderMembers members =
    [','].intercalate (members.map fun member => quote member.1 ++ ':' :: render member.2) := by
  induction members with
  | nil => rfl
  | cons member rest ih =>
    obtain ⟨name, value⟩ := member
    cases rest with
    | nil => simp [renderMembers, List.intercalate]
    | cons next rest => simp [renderMembers, ih, List.intercalate]

/-- Sorting by name leaves the values alone. -/
theorem sortByKey_map_values {α β : Type} (f : α → β) (members : List (String × α)) :
    sortByKey Prod.fst (members.map fun member => (member.1, f member.2)) =
      (sortByKey Prod.fst members).map fun member => (member.1, f member.2) := by
  apply Eq.symm
  apply List.map_insertionSort (fun a b : String × α => a.1 ≤ b.1) (fun a b : String × β => a.1 ≤ b.1)
  intro a _ b _
  rfl

/-- **The canonical text tells what a document says**, and nothing else. -/
theorem render_sorted_inj {j j' : Json} (h : Distinct j) (h' : Distinct j') :
    render (sorted j) = render (sorted j') ↔ meaning j = meaning j' := by
  constructor
  · intro heq
    have hsorted : sorted j = sorted j' := toVec_injective (congrArg (List.flatMap String.utf8EncodeChar) heq)
    rw [← meaning_sorted j h, ← meaning_sorted j' h', hsorted]
  · intro heq
    rw [sorted_eq_of_meaning j j' h h' heq]

end VaultAccess.Library.Json
