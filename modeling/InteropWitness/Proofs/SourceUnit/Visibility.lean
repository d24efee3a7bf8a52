import InteropWitness.Proofs.SourceUnit.View
import Mathlib.Data.List.Forall2

namespace InteropWitness

/-- Members with this access are hidden from the consumer. -/
def Access.Hidden (a : Access) : Prop := a = .protectedAccess ∨ a = .privateAccess

instance (a : Access) : Decidable a.Hidden := inferInstanceAs (Decidable (_ ∨ _))

/-- The consumer does not apply the conversion on its own. -/
def ConversionOperator.Hidden (c : ConversionOperator) : Prop :=
  c.isDeleted = true ∨ c.access.Hidden ∨ c.isExplicit = true ∨ c.isConst = false ∨ c.paramCount ≠ 0

instance (c : ConversionOperator) : Decidable c.Hidden :=
  inferInstanceAs (Decidable (_ ∨ _ ∨ _ ∨ _ ∨ _))

/-- The consumer cannot call the function. -/
def FunctionDecl.Hidden (f : FunctionDecl) : Prop := f.isDeleted = true ∨ f.access.Hidden

instance (f : FunctionDecl) : Decidable f.Hidden := inferInstanceAs (Decidable (_ ∨ _))

theorem Access.isVisible_iff {a : Access} : a.isVisible = true ↔ ¬a.Hidden := by
  cases a <;> decide

theorem ConversionOperator.isApplied_iff {c : ConversionOperator} :
    c.isApplied = true ↔ ¬c.Hidden := by
  simp [isApplied, Hidden, Access.isVisible_iff, and_assoc]

theorem FunctionDecl.isVisible_iff {f : FunctionDecl} : f.isVisible = true ↔ ¬f.Hidden := by
  simp [isVisible, Hidden, Access.isVisible_iff]

namespace RecordDecl

def seenBases (r : RecordDecl) : List BaseSpecifier := r.bases.filter fun b => ¬b.access.Hidden

def seenConversions (r : RecordDecl) : List ConversionOperator :=
  r.conversions.filter fun c => ¬c.Hidden

def seen (r : RecordDecl) : RecordDecl :=
  { r with bases := r.seenBases, conversions := r.seenConversions }

end RecordDecl

/-- The kinds differ at most in hidden bases and conversions, or are functions that are both hidden
and have nothing else in common. -/
inductive DeclKind.SeenAlike : DeclKind → DeclKind → Prop
  | record {r s : RecordDecl} (hty : r.ty = s.ty) (hspec : r.specialization = s.specialization)
      (hbases : r.seenBases = s.seenBases) (hconversions : r.seenConversions = s.seenConversions) :
      SeenAlike (.record r) (.record s)
  | enumeration (e : EnumDecl) : SeenAlike (.enumeration e) (.enumeration e)
  | function (f : FunctionDecl) : SeenAlike (.function f) (.function f)
  | hidden {f g : FunctionDecl} (hf : f.Hidden) (hg : g.Hidden) :
      SeenAlike (.function f) (.function g)
  | other : SeenAlike .other .other

structure Decl.SeenAlike (d e : Decl) : Prop where
  id : d.id = e.id
  name : d.name = e.name
  definition : d.definition = e.definition
  inLibrary : d.inLibrary = e.inLibrary
  kind : d.kind.SeenAlike e.kind

/-- The units have the same types, in whatever order, and differ position by position at most in
what is hidden from the consumer. -/
structure SourceUnit.SeenAlike (u v : SourceUnit) : Prop where
  types : ∀ ty, u.types.get? ty = v.types.get? ty
  decls : List.Forall₂ Decl.SeenAlike u.decls v.decls

/-- A hidden function is like a declaration that the analysis does not look into. -/
def DeclKind.seen : DeclKind → DeclKind
  | .record r => .record r.seen
  | .function f => if f.Hidden then .other else .function f
  | kind => kind

theorem DeclKind.SeenAlike.seen_eq {k l : DeclKind} (h : k.SeenAlike l) : k.seen = l.seen := by
  cases h with
  | record hty hspec hbases hconversions =>
    simp only [seen, RecordDecl.seen, hty, hspec, hbases, hconversions]
  | hidden hf hg => rw [seen, seen, if_pos hf, if_pos hg]
  | enumeration | function | other => rfl

namespace Decl

def seen (d : Decl) : Decl := { d with kind := d.kind.seen }

theorem SeenAlike.seen_eq {d e : Decl} (h : d.SeenAlike e) : d.seen = e.seen := by
  simp only [seen, h.id, h.name, h.definition, h.inLibrary, h.kind.seen_eq]

theorem map_seen_eq {ds es : List Decl} (h : List.Forall₂ Decl.SeenAlike ds es) :
    ds.map Decl.seen = es.map Decl.seen := by
  induction h with
  | nil => rfl
  | cons hd _ ih => rw [List.map_cons, List.map_cons, hd.seen_eq, ih]

end Decl

namespace RecordDecl

theorem visibleBases_seen (r : RecordDecl) :
    r.seen.bases.filter (·.access.isVisible) = r.bases.filter (·.access.isVisible) := by
  rw [seen, seenBases, List.filter_filter]
  refine List.filter_congr fun b _ => ?_
  by_cases hb : b.access.Hidden
  · have hvisible : b.access.isVisible = false :=
      Bool.eq_false_iff.2 fun hv => Access.isVisible_iff.1 hv hb
    simp [hvisible]
  · simp [hb]

theorem appliedConversions_seen (r : RecordDecl) :
    r.seen.appliedConversions = r.appliedConversions := by
  have happlied : r.seen.conversions.filter (·.isApplied) = r.conversions.filter (·.isApplied) := by
    rw [seen, seenConversions, List.filter_filter]
    refine List.filter_congr fun c _ => ?_
    by_cases hc : c.Hidden
    · have hidle : c.isApplied = false :=
        Bool.eq_false_iff.2 fun ha => ConversionOperator.isApplied_iff.1 ha hc
      simp [hidle]
    · simp [hc]
  rw [appliedConversions, happlied, appliedConversions]

end RecordDecl

/-- The view without what is hidden. -/
def View.seen : View where
  record := RecordDecl.seen
  function _ f := if f.Hidden then none else some f
  ty_record _ := rfl
  specialization_record _ := rfl
  bases_record _ := List.filter_subset_self _
  visibleBases_record := RecordDecl.visibleBases_seen
  conversions_record _ := List.filter_subset_self _
  appliedConversions_record := RecordDecl.appliedConversions_seen
  signature_function _ f g h := by
    split at h
    · cases h
    · cases h
      exact ⟨List.Subset.refl _, rfl, rfl⟩

theorem View.decl_seen : View.seen.decl = Decl.seen := by
  funext d
  obtain ⟨id, name, definition, inLibrary, kind⟩ := d
  cases kind with
  | function f => by_cases hf : f.Hidden <;> simp [decl, kind, seen, Decl.seen, DeclKind.seen, hf]
  | record | enumeration | other => rfl

namespace SourceUnit

theorem wellFormed_seen {u : SourceUnit} {types : TypeTable}
    (h : ∀ ty, u.types.get? ty = types.get? ty) : WellFormed (u.decls.map Decl.seen) types := by
  rw [← View.decl_seen]
  exact wellFormed_viewed View.seen h

/-- The unit without what is hidden from the consumer, with its types in another order. -/
def seen (u : SourceUnit) {types : TypeTable} (h : ∀ ty, u.types.get? ty = types.get? ty) :
    SourceUnit where
  decls := u.decls.map Decl.seen
  types := types
  wellFormed := wellFormed_seen h

/-- Units that differ only in what is hidden show the same to the consumer. -/
theorem SeenAlike.seen_eq {u v : SourceUnit} (h : u.SeenAlike v) :
    u.seen h.types = v.seen fun _ => rfl := by
  have hdecls : u.decls.map Decl.seen = v.decls.map Decl.seen := Decl.map_seen_eq h.decls
  simp only [seen, hdecls]

theorem seen_eq_viewed (u : SourceUnit) {types : TypeTable}
    (h : ∀ ty, u.types.get? ty = types.get? ty) : u.seen h = u.viewed View.seen h := by
  simp only [seen, viewed, View.decl_seen]

end SourceUnit

end InteropWitness
