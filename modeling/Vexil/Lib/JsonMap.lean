import Vexil.Lib.JsonValue

/-!
# Maps as JSON objects

`json.Marshal` writes a map as an object with its keys in order and a nil map as
`null`, and `json.Unmarshal` puts the members of an object into a map one after
the other. An object that went through other hands in between may have its
members in another order, and more of them under one key. As long as it has
under each key what it should (`Keeps`), that is what is read
(`lookup_unmarshalMap`).
-/

namespace Vexil.Lib

variable {V : Type}

/-! ## Writing -/

/-- The entries of a map, in the order of the keys. -/
def GoMap.sortedEntries (m : GoMap V) : List (String × V) :=
  m.sortedKeys.filterMap fun k => (m.lookup k).map (k, ·)

/-- The first error ends it. -/
def marshalMembers (marshal : V → Except String JsonValue) :
    List (String × V) → Except String (List (JsonText × JsonValue))
  | [] => .ok []
  | e :: es =>
      match marshal e.2, marshalMembers marshal es with
      | .error err, _ => .error err
      | .ok _, .error err => .error err
      | .ok doc, .ok ms => .ok ((.ofString e.1, doc) :: ms)

/-- `json.Marshal` of a map. -/
def marshalMap (marshal : V → Except String JsonValue) :
    Option (GoMap V) → Except String JsonValue
  | none => .ok .null
  | some m => (marshalMembers marshal m.sortedEntries).map .object

/-! ## Reading -/

/-- `json.Unmarshal` into a nil map, with its error thrown away: what is no
object leaves the map as it was. -/
def unmarshalMap (value : JsonValue → V) : JsonValue → Option (GoMap V)
  | .object members => some (members.foldl
      (fun m e => m.insert (goText e.1) (value e.2)) ∅)
  | _ => none

/-! ## What comes back -/

/-- Of an entry there is one, if there is any. -/
theorem filter_sortedEntries (m : GoMap V) (k : String) :
    m.sortedEntries.filter (fun e => e.1 = k) =
      ((m.lookup k).map (k, ·)).toList := by
  have hnodup := m.ranges_sortedKeys.1
  have hkeys := m.ranges_sortedKeys.2 k
  rw [GoMap.sortedEntries]
  generalize m.sortedKeys = ks at hnodup hkeys
  have hother : ∀ l : List String, k ∉ l →
      (l.filterMap fun k => (m.lookup k).map (k, ·)).filter
        (fun e => e.1 = k) = [] := by
    intro l hl
    rw [List.filter_eq_nil_iff]
    intro e he hk
    obtain ⟨k', hk', hv⟩ := List.mem_filterMap.mp he
    obtain ⟨v, _, rfl⟩ := Option.map_eq_some_iff.mp hv
    exact hl (of_decide_eq_true hk ▸ hk')
  by_cases hmem : k ∈ ks
  · obtain ⟨before, after, rfl⟩ := List.append_of_mem hmem
    obtain ⟨v, hv⟩ := Finmap.mem_iff.mp (hkeys.mp hmem)
    have hparts := List.nodup_append.mp hnodup
    have hbefore : k ∉ before := fun h =>
      hparts.2.2 k h k List.mem_cons_self rfl
    have hafter : k ∉ after := (List.nodup_cons.mp hparts.2.1).1
    rw [List.filterMap_append, List.filter_append, hother before hbefore,
      List.filterMap_cons, hv]
    simp only [Option.map_some, List.nil_append, decide_true,
      List.filter_cons_of_pos, hother after hafter, Option.toList_some]
  · rw [hother ks hmem, Finmap.lookup_eq_none.mpr fun h => hmem (hkeys.mpr h)]
    rfl

/-- The document of a value that can be written. -/
def documentOf (marshal : V → Except String JsonValue) (v : V) : JsonValue :=
  (marshal v).toOption.getD .null

theorem documentOf_of_ok {marshal : V → Except String JsonValue} {v : V}
    {doc : JsonValue} (h : marshal v = .ok doc) :
    documentOf marshal v = doc := by
  rw [documentOf, h]
  rfl

theorem marshalMembers_ok {marshal : V → Except String JsonValue}
    {es : List (String × V)} {ms : List (JsonText × JsonValue)}
    (h : marshalMembers marshal es = .ok ms) :
    ms = es.map (fun e => (.ofString e.1, documentOf marshal e.2)) ∧
      ∀ e ∈ es, marshal e.2 = .ok (documentOf marshal e.2) := by
  induction es generalizing ms with
  | nil =>
      cases h
      exact ⟨rfl, nofun⟩
  | cons e es ih =>
      rw [marshalMembers] at h
      split at h
      · cases h
      · cases h
      · next doc rest hdoc hrest =>
          cases h
          obtain ⟨rfl, hall⟩ := ih hrest
          rw [List.map_cons, documentOf_of_ok hdoc]
          refine ⟨rfl, fun e' he' => ?_⟩
          rcases List.mem_cons.mp he' with rfl | he'
          · rw [documentOf_of_ok hdoc, hdoc]
          · exact hall e' he'

/-- Under the key of an entry the object has its document. -/
theorem member_marshalMap {marshal : V → Except String JsonValue}
    {m : GoMap V} {doc : JsonValue}
    (h : marshalMap marshal (some m) = .ok doc) :
    ∃ ms, doc = .object ms ∧ (∀ e ∈ ms, ∃ k, e.1 = .ofString k) ∧
      ∀ k, member ms (.ofString k) = (m.lookup k).map (documentOf marshal) ∧
        ∀ v, m.lookup k = some v → marshal v = .ok (documentOf marshal v) := by
  rw [marshalMap] at h
  cases hms : marshalMembers marshal m.sortedEntries with
  | error err =>
      rw [hms] at h
      cases h
  | ok ms =>
      rw [hms] at h
      cases h
      obtain ⟨rfl, hall⟩ := marshalMembers_ok hms
      refine ⟨_, rfl, fun e he => ?_, fun k => ⟨?_, fun v hv => ?_⟩⟩
      · obtain ⟨e', _, rfl⟩ := List.mem_map.mp he
        exact ⟨e'.1, rfl⟩
      · have hfilter : (fun e : JsonText × JsonValue =>
            decide (e.1 = .ofString k)) ∘ (fun e : String × V =>
              ((.ofString e.1, documentOf marshal e.2) :
                JsonText × JsonValue)) = fun e => decide (e.1 = k) := by
          funext e
          simp [ofString_eq_iff]
        rw [member, List.filter_map, hfilter, filter_sortedEntries]
        cases m.lookup k <;> rfl
      · refine hall (k, v) (List.mem_of_mem_filter (p := fun e => e.1 = k) ?_)
        rw [filter_sortedEntries, hv]
        exact List.mem_singleton_self _

/-- An object whose members are what `keep` makes of those of another. -/
def Keeps (keep : JsonValue → Option JsonValue)
    (ms ms' : List (JsonText × JsonValue)) : Prop :=
  ∀ key, (∀ doc ∈ member ms key, keep doc ≠ none) ∧
    member ms' key = (member ms key).bind keep

theorem mem_of_member {ms : List (JsonText × JsonValue)} {key : JsonText}
    {doc : JsonValue} (h : doc ∈ member ms key) : ∃ e ∈ ms, e.2 = doc := by
  obtain ⟨e, he, rfl⟩ := Option.map_eq_some_iff.mp h
  exact ⟨e, (List.mem_filter.mp (List.mem_of_getLast? he)).1, rfl⟩

theorem member_isSome {ms : List (JsonText × JsonValue)} {key : JsonText} :
    (∃ doc, member ms key = some doc) ↔ ∃ e ∈ ms, e.1 = key := by
  rw [member]
  constructor
  · rintro ⟨doc, h⟩
    obtain ⟨e, he, _⟩ := Option.map_eq_some_iff.mp h
    obtain ⟨hmem, hkey⟩ := List.mem_filter.mp (List.mem_of_getLast? he)
    exact ⟨e, hmem, of_decide_eq_true hkey⟩
  · rintro ⟨e, he, hkey⟩
    have hne : ms.filter (fun m => m.1 = key) ≠ [] :=
      List.ne_nil_of_mem (List.mem_filter.mpr ⟨he, decide_eq_true hkey⟩)
    rw [List.getLast?_eq_some_getLast hne]
    exact ⟨_, rfl⟩

/-- What is read under a key is the last member that has it. -/
theorem lookup_members {value : JsonValue → V}
    {ms : List (JsonText × JsonValue)}
    (hkeys : ∀ e ∈ ms, ∃ k, e.1 = .ofString k) (k : String) :
    (ms.foldl (fun (m : GoMap V) e => m.insert (goText e.1) (value e.2))
      ∅).lookup k = (member ms (.ofString k)).map value := by
  have hfold := GoMap.lookup_foldl_insert
    (ms.map fun e => (goText e.1, value e.2)) ∅ k
  rw [List.foldl_map] at hfold
  rw [hfold, Finmap.lookup_empty, Option.or_none, List.filter_map, member]
  have hfilter : ms.filter ((fun e : String × V => decide (e.1 = k)) ∘
      fun e => (goText e.1, value e.2)) =
      ms.filter fun e => decide (e.1 = .ofString k) := by
    refine List.filter_congr fun e he => ?_
    obtain ⟨k', hk'⟩ := hkeys e he
    simp [hk', goText_ofString, ofString_eq_iff]
  rw [hfilter, List.getLast?_map, Option.map_map, Option.map_map]
  rfl

/-- A map that was written, kept and read has under each key what became of its
value. -/
theorem lookup_unmarshalMap {marshal : V → Except String JsonValue}
    {keep : JsonValue → Option JsonValue} {m : GoMap V}
    {ms ms' : List (JsonText × JsonValue)}
    (h : marshalMap marshal (some m) = .ok (.object ms))
    (hkeeps : Keeps keep ms ms') (value : JsonValue → V) :
    ∃ m', unmarshalMap value (.object ms') = some m' ∧ ∀ k, m'.lookup k =
      ((m.lookup k).bind fun v => keep (documentOf marshal v)).map value := by
  obtain ⟨_, hobject, hkeys, hmember⟩ := member_marshalMap h
  cases hobject
  have hkeys' : ∀ e ∈ ms', ∃ k, e.1 = .ofString k := by
    intro e he
    obtain ⟨doc, hdoc⟩ := member_isSome.mpr ⟨e, he, rfl⟩
    rw [(hkeeps e.1).2] at hdoc
    obtain ⟨old, hold, _⟩ := Option.bind_eq_some_iff.mp hdoc
    obtain ⟨e', he', hkey⟩ := member_isSome.mp ⟨old, hold⟩
    exact hkey ▸ hkeys e' he'
  refine ⟨_, rfl, fun k => ?_⟩
  rw [lookup_members hkeys', (hkeeps _).2, (hmember k).1]
  cases m.lookup k <;> rfl

end Vexil.Lib
