import Mathlib
import NetDiagram.Proofs.Declarations
import NetDiagram.Proofs.Document
import NetDiagram.Proofs.Findings

/-!
# Documents keep every declaration, in the order of the text

The declarations of a text are read kind by kind.  They are then sorted by their places, and put
into a document one after the other, until an id comes for the second time.

Sorting keeps each entity with its declaration (`forall₂_mergeSort`).  So the document has one
entity for each declaration, in the order of the text; and if ids are repeated, the first repetition
in the order of the text is reported, together with the place where the id was declared first.

## Main statements

* `Document.insertAll_cases`: the entities are all kept, or the first repeated id is reported.
* `Document.ofDeclarations_eq_ok_iff`: they are kept exactly if their ids are distinct.
-/

namespace NetDiagram

/-! ## Sorting -/

/-- Lists that agree member by member still do when they are sorted by numbers that agree. -/
lemma forall₂_mergeSort {α β : Type} {R : α → β → Prop} {f : α → Nat} {g : β → Nat}
    {xs : List α} {ys : List β} (hkey : ∀ x y, R x y → f x = g y) (h : List.Forall₂ R xs ys) :
    List.Forall₂ R (xs.mergeSort fun a b => f a ≤ f b) (ys.mergeSort fun a b => g a ≤ g b) := by
  obtain ⟨hlength, hmem⟩ := List.forall₂_iff_zip.1 h
  -- the pairs are sorted, and each of the two lists is a column of them
  let pairs := (xs.zip ys).mergeSort fun a b => f a.1 ≤ f b.1
  have hpairs : ∀ p ∈ xs.zip ys, R p.1 p.2 := fun p hp => hmem hp
  have hleft : pairs.map Prod.fst = xs.mergeSort fun a b => f a ≤ f b := by
    rw [List.map_mergeSort, List.map_fst_zip (Nat.le_of_eq hlength)]
    exact fun _ _ _ _ => rfl
  have hright : pairs.map Prod.snd = ys.mergeSort fun a b => g a ≤ g b := by
    rw [List.map_mergeSort, List.map_snd_zip (Nat.le_of_eq hlength.symm)]
    intro p hp q hq
    rw [hkey _ _ (hpairs p hp), hkey _ _ (hpairs q hq)]
  rw [← hleft, ← hright, List.forall₂_map_left_iff, List.forall₂_map_right_iff, List.forall₂_same]
  exact fun p hp => hpairs p (List.mem_mergeSort.1 hp)

namespace Document

lemma inTextOrder_perm (es : List Entity) : (inTextOrder es).Perm es :=
  List.mergeSort_perm es _

/-! ## Adding entities -/

/-- The entity `e` is the first of the list whose id has come before. -/
structure Repeats (es before : List Entity) (e : Entity) (after : List Entity) : Prop where
  eq : es = before ++ e :: after
  nodup : (before.map Entity.id).Nodup
  mem : e.id ∈ before.map Entity.id

lemma insert_eq (d : Document) (e : Entity) :
    (e.id ∈ d.entities.map Entity.id ∧ d.insert e = .error (.duplicateId e.id)) ∨
      ∃ d', d.insert e = .ok d' ∧ d'.entities = d.entities ++ [e] := by
  unfold insert
  split
  · exact Or.inl ⟨by assumption, rfl⟩
  · exact Or.inr ⟨_, rfl, rfl⟩

/-- **The entities are all kept, or the first repeated id is reported.** -/
theorem insertAll_cases (d : Document) (es : List Entity) :
    (∃ d', d.insertAll es = .ok d' ∧ d'.entities = d.entities ++ es) ∨
      ∃ before e after, Repeats (d.entities ++ es) before e after ∧
        d.insertAll es = .error
          (.duplicateId e.id e.span ((before.find? (·.id == e.id)).bind Entity.span)) := by
  induction es generalizing d with
  | nil => exact Or.inl ⟨d, rfl, (List.append_nil _).symm⟩
  | cons e es ih =>
    rcases insert_eq d e with ⟨hmem, hinsert⟩ | ⟨d', hinsert, hentities⟩
    · refine Or.inr ⟨d.entities, e, es, ⟨rfl, d.nodup, hmem⟩, ?_⟩
      rw [insertAll, hinsert]
      rfl
    · have hrest := ih d'
      rw [hentities, List.append_assoc, List.singleton_append] at hrest
      simpa only [insertAll, hinsert] using hrest

/-- What becomes of the declarations: all of them are kept, or the first repeated id is reported. -/
lemma ofDeclarations_cases (es : List Entity) :
    (∃ d, ofDeclarations es = .ok d ∧ d.entities = inTextOrder es) ∨
      ∃ before e after, Repeats (inTextOrder es) before e after ∧
        ofDeclarations es = .error
          (.duplicateId e.id e.span ((before.find? (·.id == e.id)).bind Entity.span)) :=
  insertAll_cases empty (inTextOrder es)

lemma Repeats.not_nodup {es before after : List Entity} {e : Entity}
    (h : Repeats es before e after) : ¬ (es.map Entity.id).Nodup := by
  rw [h.eq, List.map_append, List.map_cons, List.nodup_append]
  rintro ⟨-, -, hdisjoint⟩
  exact hdisjoint e.id h.mem e.id List.mem_cons_self rfl

/-- The declarations make a document exactly if their ids are distinct. -/
theorem ofDeclarations_eq_ok_iff {es : List Entity} :
    (∃ d, ofDeclarations es = .ok d) ↔ (es.map Entity.id).Nodup := by
  have hnodup := ((inTextOrder_perm es).map Entity.id).nodup_iff
  rw [← hnodup]
  rcases ofDeclarations_cases es with ⟨d, hd, hentities⟩ | ⟨before, e, after, hrepeats, herror⟩
  · exact iff_of_true ⟨d, hd⟩ (hentities ▸ d.nodup)
  · refine iff_of_false ?_ hrepeats.not_nodup
    rintro ⟨d, hd⟩
    simp [herror] at hd

/-- Loading a text is reading its declarations and then adding them in the order of their places. -/
lemma parse_eq {source : String} {node : Toml.Node} {es : List Entity}
    (hparse : Toml.parse source = .ok node) (hread : Declaration.entities node = .ok es) :
    Document.parse source = ofDeclarations es := by
  simp only [Document.parse, readText, hparse, hread]

end Document

/-! ## Declarations in a text -/

namespace Declaration

/-- The declarations of a text in the order of their places. -/
def inOrder (xs : List Element) : List Element :=
  xs.mergeSort fun x y => x.start ≤ y.start

lemma pairwise_inOrder (xs : List Element) :
    (inOrder xs).Pairwise fun x y => x.start ≤ y.start := by
  have hsorted : (inOrder xs).Pairwise fun x y => decide (x.start ≤ y.start) = true := by
    refine List.pairwise_mergeSort (fun x y z hxy hyz => ?_) (fun x y => ?_) xs
    · exact decide_eq_true (Nat.le_trans (of_decide_eq_true hxy) (of_decide_eq_true hyz))
    · simpa using Nat.le_total x.start y.start
  exact hsorted.imp of_decide_eq_true

lemma forall₂_inOrder {xs : List Element} {es : List Entity}
    (h : List.Forall₂ Element.Declares xs es) :
    List.Forall₂ Element.Declares (inOrder xs) (Document.inTextOrder es) :=
  forall₂_mergeSort (fun x e hx => by simp [Element.start, Document.declaredAt, hx.span]) h

lemma map_id_of_declares {xs : List Element} {es : List Entity}
    (h : List.Forall₂ Element.Declares xs es) :
    xs.map Element.id? = (es.map Entity.id).map some := by
  induction h with
  | nil => rfl
  | cons hx _ ih => simp [hx.id, ih]

lemma nodup_map_id_iff {xs : List Element} {es : List Entity}
    (h : List.Forall₂ Element.Declares xs es) :
    (xs.map Element.id?).Nodup ↔ (es.map Entity.id).Nodup := by
  rw [map_id_of_declares h]
  exact List.nodup_map_iff fun _ _ => Option.some.inj

/-- The diagnostic says that the id of one declaration was given to an earlier one. -/
structure ReportsRepetition (id : NodeId) (again first : Element) (found : Diagnostic) : Prop where
  code : found.code.map Code.name = some "E002"
  message : found.message = "duplicate entity id `" ++ id.text ++ "`"
  labels : found.labels =
    [⟨again.value.span, "declared again here", true⟩,
      ⟨first.value.span, "first declared here", false⟩]

/-- The entity with an id that is found among entities comes from the declaration with that id that
is found among their declarations. -/
lemma find?_of_declares {xs : List Element} {es : List Entity} {id : NodeId}
    (h : List.Forall₂ Element.Declares xs es) (hid : id ∈ es.map Entity.id) :
    ∃ x e, xs.find? (·.id? == some id) = some x ∧ es.find? (·.id == id) = some e ∧
      x.Declares e := by
  induction h with
  | nil => simp at hid
  | @cons x e xs es hx _ ih =>
    by_cases heq : e.id = id
    · exact ⟨x, e, by simp [hx.id, heq], by simp [heq], hx⟩
    · have hrest : id ∈ es.map Entity.id := by simpa [Ne.symm heq] using hid
      obtain ⟨x', e', hfind, hfind', hdeclares⟩ := ih hrest
      exact ⟨x', e', by simpa [hx.id, heq] using hfind, by simpa [heq] using hfind', hdeclares⟩

lemma exists_append_of_declares {xs : List Element} {before after : List Entity} {e : Entity}
    (h : List.Forall₂ Element.Declares xs (before ++ e :: after)) :
    ∃ before' x after', xs = before' ++ x :: after' ∧
      List.Forall₂ Element.Declares before' before ∧ x.Declares e := by
  have hbefore := List.forall₂_take_append _ _ _ h
  obtain ⟨x, after', hx, -, hdrop⟩ :=
    List.forall₂_cons_right_iff.1 (List.forall₂_drop_append _ _ _ h)
  exact ⟨_, x, after', by rw [← hdrop, List.take_append_drop], hbefore, hx⟩

lemma exists_repetition {xs : List Element} {es before after : List Entity} {e : Entity}
    (h : List.Forall₂ Element.Declares xs es) (hrepeats : Document.Repeats es before e after)
    (hsorted : xs.Pairwise fun x y => x.start ≤ y.start) :
    ∃ before' again after' first, xs = before' ++ again :: after' ∧
      (before'.map Element.id?).Nodup ∧ again.id? = some e.id ∧ first ∈ before' ∧
      xs.find? (·.id? == some e.id) = some first ∧ first.start ≤ again.start ∧
      ReportsRepetition e.id again first (LoadError.duplicateId e.id e.span
        ((before.find? (·.id == e.id)).bind Entity.span)).diagnostic := by
  rw [hrepeats.eq] at h
  obtain ⟨before', again, after', rfl, hbefore, hagain⟩ := exists_append_of_declares h
  obtain ⟨first, e', hfirst, hfind, hdeclares⟩ := find?_of_declares hbefore hrepeats.mem
  have hmem : first ∈ before' := List.mem_of_find?_eq_some hfirst
  refine ⟨before', again, after', first, rfl, (nodup_map_id_iff hbefore).2 hrepeats.nodup,
    hagain.id, hmem, ?_, ?_, ?_⟩
  · rw [List.find?_append, hfirst, Option.some_or]
  · exact (List.pairwise_append.1 hsorted).2.2 first hmem again List.mem_cons_self
  · rw [hfind, Option.bind_some, hdeclares.span, hagain.span]
    exact ⟨rfl, rfl, rfl⟩

end Declaration

open Declaration

/-- **Loading keeps every declaration, in the order of the text.**  In a text whose values fit,
every declaration is read as an entity.  The text makes a document exactly if the ids of its
declarations, of all kinds, are distinct; the document has one entity for every declaration, in the
order of their places.  Otherwise the first declaration in this order whose id has come before is
reported, with its place and with that of the first declaration of the id, which does not start
later. -/
theorem parse_keeps_declarations (source : String) (node : Toml.Node) (es : List Entity)
    (hparse : Toml.parse source = .ok node) (hread : Declaration.entities node = .ok es) :
    List.Forall₂ Element.Declares (elements node) es ∧
    ∃ xs : List Element, xs.Perm (elements node) ∧ (xs.Pairwise fun x y => x.start ≤ y.start) ∧
      ((∃ d, Document.parse source = .ok d) ↔ ((elements node).map Element.id?).Nodup) ∧
      (∀ d, Document.parse source = .ok d → List.Forall₂ Element.Declares xs d.entities) ∧
      (¬ ((elements node).map Element.id?).Nodup →
        ∃ err id before again after first, Document.parse source = .error err ∧
          xs = before ++ again :: after ∧ (before.map Element.id?).Nodup ∧
          again.id? = some id ∧ first ∈ before ∧ xs.find? (·.id? == some id) = some first ∧
          first.start ≤ again.start ∧ ReportsRepetition id again first err.diagnostic) := by
  obtain ⟨span, kind, entries, rfl⟩ := exists_table_of_parse hparse
  have hdeclares := forall₂_elements hread
  have hordered := forall₂_inOrder hdeclares
  have hparse' := Document.parse_eq hparse hread
  have hids := nodup_map_id_iff hdeclares
  rw [hparse', hids, Document.ofDeclarations_eq_ok_iff]
  refine ⟨hdeclares, _, List.mergeSort_perm _ _, pairwise_inOrder _, Iff.rfl, fun d hd => ?_,
    fun hrepeated => ?_⟩
  · rcases Document.ofDeclarations_cases es with ⟨d', hd', hentities⟩ | ⟨_, _, _, -, herror⟩
    · obtain rfl : d' = d := Except.ok.inj (hd'.symm.trans hd)
      rwa [hentities]
    · simp [herror] at hd
  · rcases Document.ofDeclarations_cases es with ⟨d, hd, -⟩ | ⟨before, e, after, hrepeats, herror⟩
    · exact absurd (Document.ofDeclarations_eq_ok_iff.1 ⟨d, hd⟩) hrepeated
    · obtain ⟨before', again, after', first, hfacts⟩ :=
        exists_repetition hordered hrepeats (pairwise_inOrder _)
      exact ⟨_, e.id, before', again, after', first, herror, hfacts⟩

/-- A note and a placeholder; the id of the note is a number, and that of the placeholder is a text
for the same number. -/
def repeatingText : String :=
  "[[note]]\nid = 1\n[[ph]]\nid = \" 1\"\nname = \"p\"\n"

lemma reads_repeatingText :
    ∃ node es, Toml.parse repeatingText = .ok node ∧ Declaration.entities node = .ok es ∧
      (elements node).map (·.tag) = ["ph", "note"] ∧
      (elements node).map Element.id? = [some (.ofText "1"), some (.ofText "1")] ∧
      Document.ofDeclarations es = .error (.duplicateId (.ofText "1")
        (some (Span.ofRange 16 22)) (some (Span.ofRange 0 8))) := by
  refine ⟨?node, ?es, ?parse, ?read, ?tags, ?ids, ?load⟩
  case parse => cbv; rfl
  case read => cbv; rfl
  case tags => rfl
  case ids => rfl
  case load => cbv

/-- A placeholder between two notes, and a unit before them. -/
def mixedText : String :=
  "[[unit]]\nid = 4\nclass = \"U\"\nsource = \"s\"\n[[note]]\nid = 3\n[[ph]]\nid = \" 1\"\n" ++
    "name = \"p\"\n[[note]]\nid = 2\n"

lemma reads_mixedText :
    ∃ node es d, Toml.parse mixedText = .ok node ∧ Declaration.entities node = .ok es ∧
      (elements node).map (·.tag) = ["unit", "ph", "note", "note"] ∧
      Document.ofDeclarations es = .ok d ∧
      d.entities.map (fun e => (e.tag, e.id.text)) =
        [("unit", "4"), ("note", "3"), ("ph", "1"), ("note", "2")] := by
  refine ⟨?node, ?es, ?d, ?parse, ?read, ?tags, ?load, ?entities⟩
  case parse => cbv; rfl
  case read => cbv; rfl
  case tags => rfl
  case load => cbv; rfl
  case entities => rfl

/-- In the first text the placeholder is reported, for it comes second in the text, though
placeholders are read before notes.  The second text is loaded, in its own order. -/
theorem parse_keeps_declarations_repeating :
    (∃ node es, Toml.parse repeatingText = .ok node ∧ Declaration.entities node = .ok es ∧
      (elements node).map (·.tag) = ["ph", "note"] ∧
      ∃ err id again first, Document.parse repeatingText = .error err ∧
        ReportsRepetition id again first err.diagnostic ∧
        again.value.span = Span.ofRange 16 22 ∧ first.value.span = Span.ofRange 0 8) ∧
    ∃ node es d xs, Toml.parse mixedText = .ok node ∧ Declaration.entities node = .ok es ∧
      (elements node).map (·.tag) = ["unit", "ph", "note", "note"] ∧
      Document.parse mixedText = .ok d ∧
      d.entities.map (fun e => (e.tag, e.id.text)) =
        [("unit", "4"), ("note", "3"), ("ph", "1"), ("note", "2")] ∧
      xs.Perm (elements node) ∧ List.Forall₂ Element.Declares xs d.entities := by
  constructor
  · obtain ⟨node, es, hparse, hread, htags, hids, hload⟩ := reads_repeatingText
    have hrun := (Document.parse_eq hparse hread).trans hload
    obtain ⟨-, xs, -, -, -, -, hrepeated⟩ :=
      parse_keeps_declarations repeatingText node es hparse hread
    obtain ⟨err, id, before, again, after, first, herror, -, -, -, -, -, -, hreports⟩ :=
      hrepeated (by rw [hids]; simp)
    obtain rfl := Except.error.inj (hrun.symm.trans herror)
    -- The spans of the two elements are those of the labels of the message.
    have hlabels : [(⟨Span.ofRange 16 22, "declared again here", true⟩ : Label),
        ⟨Span.ofRange 0 8, "first declared here", false⟩] =
          [⟨again.value.span, "declared again here", true⟩,
            ⟨first.value.span, "first declared here", false⟩] := hreports.labels
    simp only [List.cons.injEq, Label.mk.injEq, and_true] at hlabels
    exact ⟨node, es, hparse, hread, htags, _, id, again, first, hrun, hreports, hlabels.1.symm,
      hlabels.2.symm⟩
  · obtain ⟨node, es, d, hparse, hread, htags, hload, hentities⟩ := reads_mixedText
    have hrun := (Document.parse_eq hparse hread).trans hload
    obtain ⟨-, xs, hperm, -, -, hkept, -⟩ :=
      parse_keeps_declarations mixedText node es hparse hread
    exact ⟨node, es, d, xs, hparse, hread, htags, hrun, hentities, hperm, hkept d hrun⟩

end NetDiagram
