import InteropWitness.Config.Basic
import InteropWitness.Proofs.Text.Search
import Mathlib.Data.List.Nodup

namespace InteropWitness

namespace Namespace

/-- The namespace is spelled out somewhere in the text. -/
def SpelledOut (ns text : String) : Prop := ns.toList <:+: text.toList

instance (ns text : String) : Decidable (SpelledOut ns text) :=
  decidable_of_iff (¬Text.breakOn ns.toList text.toList = none)
    (by rw [Text.breakOn_eq_none_iff, Decidable.not_not, SpelledOut])

/-- Of texts that do not spell the namespace out, no two become one by putting it in. -/
theorem expand_inj {ns s t : String} (hns : Text.Unbordered ns.toList) (hs : ¬SpelledOut ns s)
    (ht : ¬SpelledOut ns t) (h : expand s ns = expand t ns) : s = t := by
  have hlists := String.ofList_injective h
  exact String.toList_injective (Text.replaceAll_inj (List.cons_ne_nil _ _) hns hs ht hlists)

end Namespace

namespace RelationOverride

/-- What a relation override is about: the name of a declaration and the relations. -/
def target (o : RelationOverride) : String × Option Relation := (o.typeName, o.relation)

end RelationOverride

namespace RecordMatcher

/-- The names in a matcher. -/
def names : RecordMatcher → List String
  | selfOrSubclass base => [base]
  | handleOf template base => [template, base]
  | exact typeName => [typeName]

theorem expand_inj {ns : String} (hns : Text.Unbordered ns.toList) {m m' : RecordMatcher}
    (hm : ∀ name ∈ m.names, ¬Namespace.SpelledOut ns name)
    (hm' : ∀ name ∈ m'.names, ¬Namespace.SpelledOut ns name) (h : m.expand ns = m'.expand ns) :
    m = m' := by
  cases m with
  | selfOrSubclass base =>
    cases m' with
    | selfOrSubclass base' =>
      injection h with hbase
      rw [Namespace.expand_inj hns (hm base (by simp [names])) (hm' base' (by simp [names])) hbase]
    | handleOf | exact => cases h
  | handleOf template base =>
    cases m' with
    | handleOf template' base' =>
      injection h with htemplate hbase
      rw [Namespace.expand_inj hns (hm base (by simp [names])) (hm' base' (by simp [names])) hbase,
        Namespace.expand_inj hns (hm template (by simp [names]))
          (hm' template' (by simp [names])) htemplate]
    | selfOrSubclass | exact => cases h
  | exact typeName =>
    cases m' with
    | exact typeName' =>
      injection h with hname
      rw [Namespace.expand_inj hns (hm typeName (by simp [names]))
        (hm' typeName' (by simp [names])) hname]
    | selfOrSubclass | handleOf => cases h

end RecordMatcher

namespace Config

theorem forall_not_mem_cons_iff {α β : Type} {f : α → β} {items : List α} {b : β}
    {seen : List β} :
    (∀ a ∈ items, f a ∉ b :: seen) ↔ b ∉ items.map f ∧ ∀ a ∈ items, f a ∉ seen := by
  simp only [List.mem_cons, not_or, List.mem_map, not_exists, not_and, forall_and]

theorem relationFault?_cons_eq_none_iff {o : RelationOverride} {rest : List RelationOverride}
    {seen : List (String × Option Relation)} :
    relationFault? seen (o :: rest) = none ↔
      Text.allBlank o.typeName = false ∧ o.target ∉ seen ∧
        relationFault? (o.target :: seen) rest = none := by
  rw [relationFault?]
  split
  · next hblank => simp [hblank]
  · next hblank =>
    split
    · next hseen => simp [RelationOverride.target, hseen]
    · next hseen => simp [RelationOverride.target, hblank, hseen]

theorem relationFault?_eq_none_iff {overrides : List RelationOverride}
    {seen : List (String × Option Relation)} :
    relationFault? seen overrides = none ↔
      (∀ o ∈ overrides, Text.allBlank o.typeName = false) ∧
        (overrides.map (·.target)).Nodup ∧ ∀ o ∈ overrides, o.target ∉ seen := by
  induction overrides generalizing seen with
  | nil => simp [relationFault?]
  | cons o rest ih =>
    rw [relationFault?_cons_eq_none_iff, ih, forall_not_mem_cons_iff, List.forall_mem_cons,
      List.forall_mem_cons, List.map_cons, List.nodup_cons]
    constructor
    · rintro ⟨hblank, hseen, hrest, hnodup, hnew, holds⟩
      exact ⟨⟨hblank, hrest⟩, ⟨hnew, hnodup⟩, hseen, holds⟩
    · rintro ⟨⟨hblank, hrest⟩, ⟨hnew, hnodup⟩, hseen, holds⟩
      exact ⟨hblank, hseen, hrest, hnodup, hnew, holds⟩

theorem stringFault?_eq_none_iff {overrides : List StringOverride} {seen : List RecordMatcher} :
    stringFault? seen overrides = none ↔
      (overrides.map (·.matcher)).Nodup ∧ ∀ o ∈ overrides, o.matcher ∉ seen := by
  induction overrides generalizing seen with
  | nil => simp [stringFault?]
  | cons o rest ih =>
    rw [stringFault?, List.forall_mem_cons, List.map_cons, List.nodup_cons]
    split
    · next hseen => simp [hseen]
    · next hseen =>
      rw [ih, forall_not_mem_cons_iff]
      constructor
      · rintro ⟨hnodup, hnew, holds⟩
        exact ⟨⟨hnew, hnodup⟩, hseen, holds⟩
      · rintro ⟨⟨hnew, hnodup⟩, _, holds⟩
        exact ⟨hnodup, hnew, holds⟩

/-- What a configuration without faults is: its names are not blank, and no two of its overrides are
written alike. -/
theorem fault?_eq_none_iff {c : Config} :
    c.fault? = none ↔
      (Text.allBlank c.streamType = false ∧ Text.allBlank c.libraryNamespace = false ∧
        ∀ o ∈ c.relationOverrides, Text.allBlank o.typeName = false) ∧
      (c.relationOverrides.map (·.target)).Nodup ∧ (c.stringOverrides.map (·.matcher)).Nodup := by
  have hrelation := @relationFault?_eq_none_iff c.relationOverrides []
  have hstring := @stringFault?_eq_none_iff c.stringOverrides []
  simp only [List.not_mem_nil, not_false_eq_true, implies_true, and_true] at hrelation hstring
  rw [fault?]
  split
  · next hstream => simp [hstream]
  · next hstream =>
    split
    · next hns => simp [hns]
    · next hns =>
      rw [Option.or_eq_none_iff, hrelation, hstring]
      simp [hstream, hns, and_assoc]

theorem nodup_map_map_iff {α β γ : Type} {f : α → β} {items : List α} (g : β → γ)
    (h : (items.map f).Nodup) :
    (items.map fun a => g (f a)).Nodup ↔
      ∀ a ∈ items, ∀ b ∈ items, g (f a) = g (f b) → f a = f b := by
  have hmap : (items.map fun a => g (f a)) = (items.map f).map g := by
    rw [List.map_map]
    rfl
  rw [hmap, List.nodup_map_iff_inj_on h]
  simp only [List.forall_mem_map]

section Accepted

variable {c : Config} (haccepted : c.fault? = none)
include haccepted

theorem nodup_relationTable_iff :
    (c.relationTable.map (·.target)).Nodup ↔
      ∀ o ∈ c.relationOverrides, ∀ o' ∈ c.relationOverrides,
        (o.expand c.libraryNamespace).target = (o'.expand c.libraryNamespace).target →
          o.target = o'.target := by
  obtain ⟨_, hwritten, _⟩ := fault?_eq_none_iff.1 haccepted
  have h := nodup_map_map_iff
    (fun t : String × Option Relation => (Namespace.expand t.1 c.libraryNamespace, t.2)) hwritten
  rw [relationTable, List.map_map]
  exact h

theorem nodup_stringTable_iff :
    (c.stringTable.map (·.matcher)).Nodup ↔
      ∀ o ∈ c.stringOverrides, ∀ o' ∈ c.stringOverrides,
        o.matcher.expand c.libraryNamespace = o'.matcher.expand c.libraryNamespace →
          o.matcher = o'.matcher := by
  obtain ⟨_, _, hwritten⟩ := fault?_eq_none_iff.1 haccepted
  rw [stringTable, List.map_map]
  exact nodup_map_map_iff (·.expand c.libraryNamespace) hwritten

end Accepted

/-- The names in the overrides, as they are written. -/
def overrideNames (c : Config) : List String :=
  c.relationOverrides.map (·.typeName) ++ c.stringOverrides.flatMap (·.matcher.names)

theorem distinct_of_placeholders {c : Config} (haccepted : c.fault? = none)
    (hns : Text.Unbordered c.libraryNamespace.toList)
    (hnames : ∀ name ∈ c.overrideNames, ¬Namespace.SpelledOut c.libraryNamespace name) :
    (c.relationTable.map (·.target)).Nodup ∧ (c.stringTable.map (·.matcher)).Nodup := by
  simp only [overrideNames, List.forall_mem_append, List.forall_mem_map, List.mem_flatMap,
    forall_exists_index, and_imp] at hnames
  obtain ⟨hrelation, hstring⟩ := hnames
  rw [nodup_relationTable_iff haccepted, nodup_stringTable_iff haccepted]
  constructor
  · intro o ho o' ho' h
    obtain ⟨hname, hlimit⟩ := Prod.mk.inj h
    exact Prod.ext (Namespace.expand_inj hns (hrelation o ho) (hrelation o' ho') hname) hlimit
  · intro o ho o' ho' h
    exact RecordMatcher.expand_inj hns (fun name hname => hstring name o ho hname)
      (fun name hname => hstring name o' ho' hname) h

/-- Once a configuration is accepted, only two overrides that are written differently can be alike
in effect: two of relations whose declaration and relations are the same once the namespace is put
in, or two of string conversion whose matchers are. There are none in a configuration that writes
the placeholder wherever it means the namespace, if the namespace does not end as it starts. -/
theorem expanded_overrides_distinct (c : Config) (haccepted : c.fault? = none) :
    ((c.relationTable.map (·.target)).Nodup ↔
      ∀ o ∈ c.relationOverrides, ∀ o' ∈ c.relationOverrides,
        (o.expand c.libraryNamespace).target = (o'.expand c.libraryNamespace).target →
          o.target = o'.target) ∧
    ((c.stringTable.map (·.matcher)).Nodup ↔
      ∀ o ∈ c.stringOverrides, ∀ o' ∈ c.stringOverrides,
        o.matcher.expand c.libraryNamespace = o'.matcher.expand c.libraryNamespace →
          o.matcher = o'.matcher) ∧
    (Text.Unbordered c.libraryNamespace.toList →
      (∀ name ∈ c.overrideNames, ¬Namespace.SpelledOut c.libraryNamespace name) →
        (c.relationTable.map (·.target)).Nodup ∧ (c.stringTable.map (·.matcher)).Nodup) :=
  ⟨nodup_relationTable_iff haccepted, nodup_stringTable_iff haccepted,
    distinct_of_placeholders haccepted⟩

/-- The overrides that are there by default, for a version of the library. -/
def versionedDefault : Config :=
  { default with libraryNamespace := "pxrInternal_v0_25__pxrReserved__" }

theorem versionedDefault_distinct :
    versionedDefault.fault? = none ∧ (versionedDefault.relationTable.map (·.target)).Nodup ∧
      (versionedDefault.stringTable.map (·.matcher)).Nodup := by
  have haccepted : versionedDefault.fault? = none := by decide +kernel
  have hns : Text.Unbordered versionedDefault.libraryNamespace.toList := by decide +kernel
  have hnames : ∀ name ∈ versionedDefault.overrideNames,
      ¬Namespace.SpelledOut versionedDefault.libraryNamespace name := by decide +kernel
  exact ⟨haccepted, (expanded_overrides_distinct versionedDefault haccepted).2.2 hns hnames⟩

/-- One map with and without the placeholder, under both kinds of overrides. -/
def spelledTwice : Config :=
  { default with
    relationOverrides :=
      [⟨"class {ns}::Map", .forceUnavailable, none⟩, ⟨"class pxr::Map", .missedByConsumer, none⟩]
    stringOverrides :=
      [⟨.exact "class {ns}::Map", .metadataMap⟩, ⟨.exact "class pxr::Map", .objectSubclass⟩] }

/-- It is accepted, and each of its tables has one and the same entry twice. -/
theorem spelledTwice_accepted :
    spelledTwice.fault? = none ∧
      spelledTwice.relationTable.map (·.target) =
        [("class pxr::Map", none), ("class pxr::Map", none)] ∧
      spelledTwice.stringTable.map (·.matcher) =
        [.exact "class pxr::Map", .exact "class pxr::Map"] := by
  decide +kernel

/-- A namespace that ends as it starts can be put in at two places with one result. -/
example : ¬Text.Unbordered "aa".toList ∧
    Namespace.expand "{ns}a" "aa" = Namespace.expand "a{ns}" "aa" := by
  decide

end Config

end InteropWitness
