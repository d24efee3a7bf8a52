import InteropWitness.Proofs.SourceUnit.Inheritance
import Mathlib.Data.List.Induction

namespace InteropWitness

section FirstPlaces

variable {α : Type} [DecidableEq α]

theorem eraseDups_concat (l : List α) (a : α) :
    (l ++ [a]).eraseDups = if a ∈ l then l.eraseDups else l.eraseDups ++ [a] := by
  have hrest : [a].removeAll l = if a ∈ l then [] else [a] := by
    by_cases ha : a ∈ l <;> simp [List.removeAll, ha]
  rw [List.eraseDups_append, hrest]
  split
  · exact List.append_nil _
  · rfl

theorem nodup_eraseDups (l : List α) : l.eraseDups.Nodup := by
  induction l using List.reverseRecOn with
  | nil => exact List.nodup_nil
  | append_singleton l a ih =>
    rw [eraseDups_concat]
    split
    · exact ih
    · next ha =>
      rw [← List.concat_eq_append]
      exact ih.concat fun hmem => ha (List.mem_eraseDups.1 hmem)

theorem filter_eraseDups (p : α → Bool) (l : List α) :
    l.eraseDups.filter p = (l.filter p).eraseDups := by
  induction l using List.reverseRecOn with
  | nil => rfl
  | append_singleton l a ih =>
    rw [eraseDups_concat, List.filter_append]
    by_cases hp : p a = true
    · have hkept : [a].filter p = [a] := List.filter_cons_of_pos hp
      have hmem : a ∈ l.filter p ↔ a ∈ l := by rw [List.mem_filter, and_iff_left hp]
      rw [hkept, eraseDups_concat, ← ih]
      by_cases ha : a ∈ l
      · rw [if_pos ha, if_pos (hmem.2 ha)]
      · rw [if_neg ha, if_neg (mt hmem.1 ha), List.filter_append, hkept]
    · have hdropped : [a].filter p = [] := List.filter_cons_of_neg hp
      rw [hdropped, List.append_nil, ← ih]
      split
      · rfl
      · rw [List.filter_append, hdropped, List.append_nil]

theorem prefix_eraseDups_append (l m : List α) : l.eraseDups <+: (l ++ m).eraseDups := by
  rw [List.eraseDups_append]
  exact List.prefix_append _ _

end FirstPlaces

theorem RecordDecl.mem_appliedConversions_iff {r : RecordDecl} {ty : TypeKey} :
    ty ∈ r.appliedConversions ↔ ∃ c ∈ r.conversions, ¬c.Hidden ∧ c.target.ty = ty := by
  simp only [appliedConversions, List.mem_map, List.mem_filter, ConversionOperator.isApplied_iff,
    and_assoc]

/-- The type that the template of a specialization has inside itself. -/
def Decl.selfType? (d : Decl) : Option TypeKey := d.specialization?.map (·.selfType)

namespace SourceUnit

variable {u : SourceUnit} {d : Decl} {r : RecordDecl}

theorem conversionClosure_record (hkind : d.kind = .record r) (order : ClosureOrder) :
    ∃ beyond, u.conversionClosure order d = (u.supertypeKeys d.id ++ beyond).eraseDups ∧
      (beyond = d.selfType?.toList ++ r.appliedConversions ∨
        beyond = r.appliedConversions ++ d.selfType?.toList) := by
  have hself : d.selfType? = r.specialization.map (·.selfType) := by
    simp [Decl.selfType?, Decl.specialization?, Decl.record?, hkind]
  rw [conversionClosure, hkind, hself]
  cases order with
  | selfTypeBeforeConversions => exact ⟨_, rfl, Or.inl rfl⟩
  | selfTypeLast => exact ⟨_, rfl, Or.inr rfl⟩

theorem nodup_conversionClosure (order : ClosureOrder) (d : Decl) :
    (u.conversionClosure order d).Nodup := by
  cases hkind : d.kind with
  | record r =>
    obtain ⟨beyond, hclosure, _⟩ := u.conversionClosure_record hkind order
    rw [hclosure]
    exact nodup_eraseDups _
  | enumeration e =>
    rw [conversionClosure, hkind]
    exact List.nodup_singleton e.ty
  | function | other =>
    rw [conversionClosure, hkind]
    exact List.nodup_nil

theorem mem_conversionClosure_iff (hkind : d.kind = .record r) (order : ClosureOrder)
    {ty : TypeKey} : ty ∈ u.conversionClosure order d ↔
      ty ∈ u.supertypeKeys d.id ∨ ty ∈ r.appliedConversions ∨ d.selfType? = some ty := by
  obtain ⟨beyond, hclosure, hbeyond⟩ := u.conversionClosure_record hkind order
  have hmem : ty ∈ beyond ↔ ty ∈ r.appliedConversions ∨ d.selfType? = some ty := by
    rcases hbeyond with rfl | rfl <;> simp [or_comm]
  rw [hclosure, List.mem_eraseDups, List.mem_append, hmem]

theorem perm_conversionClosure (u : SourceUnit) (d : Decl) :
    (u.conversionClosure .selfTypeBeforeConversions d).Perm
      (u.conversionClosure .selfTypeLast d) := by
  cases hkind : d.kind with
  | record r =>
    refine (List.perm_ext_iff_of_nodup (nodup_conversionClosure _ d)
      (nodup_conversionClosure _ d)).2 fun ty => ?_
    rw [mem_conversionClosure_iff hkind, mem_conversionClosure_iff hkind]
  | enumeration | function | other =>
    rw [conversionClosure, conversionClosure, hkind]

/-- Without the self type, what is entered beyond the supertypes is the same in both orders. -/
theorem filter_conversionClosure (order : ClosureOrder) (hkind : d.kind = .record r) :
    (u.conversionClosure order d).filter (some · ≠ d.selfType?) =
      ((u.supertypeKeys d.id ++ r.appliedConversions).filter (some · ≠ d.selfType?)).eraseDups := by
  have hself : d.selfType?.toList.filter (some · ≠ d.selfType?) = [] := by
    cases d.selfType? <;> simp
  obtain ⟨beyond, hclosure, rfl | rfl⟩ := u.conversionClosure_record hkind order
  · rw [hclosure, filter_eraseDups, List.filter_append, List.filter_append, hself,
      List.nil_append, List.filter_append]
  · rw [hclosure, filter_eraseDups, List.filter_append, List.filter_append, hself,
      List.append_nil, List.filter_append]

/-- The ids are those of the records that `start` visibly inherits from. It stands first, each of
them stands once, and those on shorter paths stand ahead of the others. -/
structure ListedByDistance (u : SourceUnit) (start : DeclId) (ids : List DeclId) : Prop where
  head : ids.head? = some start
  nodup : ids.Nodup
  mem : ∀ b, b ∈ ids ↔ Relation.ReflTransGen (u.Inherits true) start b
  nearer : ids.Pairwise fun a b => ∀ m n, Distance (u.Inherits true) start a m →
    Distance (u.Inherits true) start b n → m ≤ n

theorem Defines.declaresRecord (h : u.Defines d) (hkind : d.kind = .record r) :
    u.DeclaresRecord d.id d r :=
  definingRecord?_eq_some_iff.1 (h.definingRecord?_eq hkind)

theorem DeclaresRecord.listedByDistance {id : DeclId} (h : u.DeclaresRecord id d r) :
    u.ListedByDistance d.id (u.visibleSupertypes id) where
  head := head?_visibleSupertypes h
  nodup := nodup_visibleSupertypes h
  mem _ := mem_visibleSupertypes_iff h
  nearer := pairwise_visibleSupertypes h

theorem mem_supertypeKeys_iff (h : u.DeclaresRecord d.id d r) {ty : TypeKey} :
    ty ∈ u.supertypeKeys d.id ↔ ∃ e ∈ u.decls,
      Relation.ReflTransGen (u.Inherits true) d.id e.id ∧ e.tagType? = some ty := by
  simp only [supertypeKeys, List.mem_filterMap, mem_visibleSupertypes_iff h,
    Option.bind_eq_some_iff]
  constructor
  · rintro ⟨b, hb, e, he, hty⟩
    obtain rfl := id_of_decl? he
    exact ⟨e, mem_of_decl? he, hb, hty⟩
  · rintro ⟨e, he, hreached, hty⟩
    exact ⟨e.id, hreached, e, decl?_id he, hty⟩

theorem exists_supertypeKeys_eq_cons (h : u.Defines d) (hkind : d.kind = .record r) :
    ∃ keys, u.supertypeKeys d.id = r.ty :: keys := by
  have hhead := head?_visibleSupertypes (h.declaresRecord hkind)
  obtain ⟨records, hrecords⟩ := List.head?_eq_some_iff.1 hhead
  have hown : (u.decl? d.id).bind (·.tagType?) = some r.ty := by
    simp [decl?_id h.mem, Decl.tagType?, hkind]
  rw [supertypeKeys, hrecords, List.filterMap_cons]
  simp only [hown]
  exact ⟨_, rfl⟩

/-- For every unit and every declaration. Both closures have nothing twice, hold the same types,
and are the same list once the template self type is taken out. Those of a record that is its own
definition start with its own type and go on with the types of its visible supertypes, the nearer
ones first; they hold these types, the targets of the conversions that the consumer applies, the
self type if the record is a specialization, and nothing else, whichever of these coincide. -/
theorem closures_agree (u : SourceUnit) (d : Decl) :
    (∀ order, (u.conversionClosure order d).Nodup) ∧
      (u.conversionClosure .selfTypeBeforeConversions d).Perm
        (u.conversionClosure .selfTypeLast d) ∧
      (u.conversionClosure .selfTypeBeforeConversions d).filter (some · ≠ d.selfType?) =
        (u.conversionClosure .selfTypeLast d).filter (some · ≠ d.selfType?) ∧
      ∀ r, d.kind = .record r → u.Defines d →
        u.ListedByDistance d.id (u.visibleSupertypes d.id) ∧
        ∀ order, (u.conversionClosure order d).head? = some r.ty ∧
          (u.supertypeKeys d.id).eraseDups <+: u.conversionClosure order d ∧
          ∀ ty, ty ∈ u.conversionClosure order d ↔
            ty = r.ty ∨
            (∃ e ∈ u.decls, Relation.ReflTransGen (u.Inherits true) d.id e.id ∧
              e.tagType? = some ty) ∨
            (∃ c ∈ r.conversions, ¬c.Hidden ∧ c.target.ty = ty) ∨
            ∃ s, r.specialization = some s ∧ s.selfType = ty := by
  refine ⟨fun order => nodup_conversionClosure order d, perm_conversionClosure u d, ?_, ?_⟩
  · cases hkind : d.kind with
    | record r => rw [filter_conversionClosure _ hkind, filter_conversionClosure _ hkind]
    | enumeration | function | other => rw [conversionClosure, conversionClosure, hkind]
  · intro r hkind hdefines
    have hrecord := hdefines.declaresRecord hkind
    refine ⟨hrecord.listedByDistance, fun order => ?_⟩
    obtain ⟨beyond, hclosure, _⟩ := u.conversionClosure_record hkind order
    obtain ⟨keys, hkeys⟩ := exists_supertypeKeys_eq_cons hdefines hkind
    refine ⟨?_, ?_, fun ty => ?_⟩
    · rw [hclosure, hkeys, List.cons_append, List.eraseDups_cons, List.head?_cons]
    · rw [hclosure]
      exact prefix_eraseDups_append _ beyond
    · have hself : d.selfType? = some ty ↔ ∃ s, r.specialization = some s ∧ s.selfType = ty := by
        simp [Decl.selfType?, Decl.specialization?, Decl.record?, hkind]
      have hown : ty = r.ty → ty ∈ u.supertypeKeys d.id := by
        rintro rfl
        rw [hkeys]
        exact List.mem_cons_self
      rw [mem_conversionClosure_iff hkind, ← mem_supertypeKeys_iff hrecord,
        RecordDecl.mem_appliedConversions_iff, hself, ← or_assoc (a := ty = r.ty),
        or_iff_right_of_imp hown]

/-- A pair that also converts to the self type of its template. Both of its bases declare the same
type, and the first of them inherits from the pair. -/
def coveredPair : SourceUnit where
  decls :=
    [⟨⟨0⟩, "Base", none, true, .record ⟨"Base", [⟨"Pair<int>", .publicAccess⟩], [], none⟩⟩,
      ⟨⟨1⟩, "Cover", none, true, .record ⟨"Base", [], [], none⟩⟩,
      ⟨⟨2⟩, "Pair<int>", none, true, .record ⟨"Pair<int>",
        [⟨"Base", .publicAccess⟩, ⟨"Cover", .unspecified⟩],
        [.plain "float" .publicAccess, .plain "Pair<T>" .publicAccess, .plain "int" .privateAccess],
        some ⟨"Pair", "Pair<T>", ["int"]⟩⟩⟩]
  types := OrderedMap.ofList [("Base", .record ⟨0⟩), ("Cover", .record ⟨1⟩),
    ("Pair<int>", .record ⟨2⟩), ("Pair<T>", .dependent), ("float", .builtin .floating),
    ("int", .builtin .integer)]
  wellFormed := WellFormed.fault?_eq_none_iff.1 (by decide)

theorem closures_of_coveredPair :
    coveredPair.Defines coveredPair.decls[2] ∧
      (coveredPair.conversionClosure .selfTypeBeforeConversions coveredPair.decls[2]).Perm
        (coveredPair.conversionClosure .selfTypeLast coveredPair.decls[2]) ∧
      coveredPair.ListedByDistance ⟨2⟩ (coveredPair.visibleSupertypes ⟨2⟩) ∧
      ∀ order,
        (coveredPair.conversionClosure order coveredPair.decls[2]).head? = some "Pair<int>" ∧
        "Pair<T>" ∈ coveredPair.conversionClosure order coveredPair.decls[2] ∧
        "float" ∈ coveredPair.conversionClosure order coveredPair.decls[2] := by
  have hdefines : coveredPair.Defines coveredPair.decls[2] := by
    rw [Defines]
    decide
  obtain ⟨_, hperm, _, hrecord⟩ := closures_agree coveredPair coveredPair.decls[2]
  obtain ⟨hlisted, hclosures⟩ := hrecord _ rfl hdefines
  refine ⟨hdefines, hperm, hlisted, fun order => ?_⟩
  obtain ⟨hhead, _, hmem⟩ := hclosures order
  refine ⟨hhead, (hmem "Pair<T>").2 (.inr (.inr (.inr ⟨_, rfl, rfl⟩))), (hmem "float").2 ?_⟩
  exact .inr (.inr (.inl ⟨.plain "float" .publicAccess, by decide, by decide, rfl⟩))

example : coveredPair.conversionClosure .selfTypeBeforeConversions coveredPair.decls[2] =
    ["Pair<int>", "Base", "Pair<T>", "float"] := by cbv

example : coveredPair.conversionClosure .selfTypeLast coveredPair.decls[2] =
    ["Pair<int>", "Base", "float", "Pair<T>"] := by cbv

end SourceUnit

end InteropWitness
