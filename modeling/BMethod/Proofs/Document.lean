import Mathlib
import BMethod.Proofs.Item
import BMethod.Proofs.Ty.Declaration

/-!
# Normal forms of documents

Writing items that were read from a document gives a document again: its text is read as the same
types and items, and writing these once more gives the same document.
-/

namespace BMethod

open Element (Agrees Clean Printable forall₂_agrees)

def Outcome.IsWritten (o : Outcome) (item : Item) : Prop :=
  ∃ e size, o = .written item e size

namespace Document

variable {k : ItemKind} {t : Table} {p : Pool} {es : List Element} {items : List Item}

/-! ## Writing items in a row -/

theorem writeItems_of_all {p q : Pool} {items : List Item} {es : List Element}
    (h : (Write.all (items.map Item.write)).on p = (.ok es, q)) :
    List.Forall₂ Outcome.IsWritten (writeItems p (items.map .ok)).1 items ∧
      writtenElements (writeItems p (items.map .ok)).1 = es ∧
      (writeItems p (items.map .ok)).2 = q := by
  induction items generalizing p es with
  | nil =>
    cases h
    exact ⟨.nil, rfl, rfl⟩
  | cons item items ih =>
    obtain ⟨e, r, he, h⟩ := Write.bind_on_eq_ok h
    obtain ⟨rest, s, hrest, h⟩ := Write.bind_on_eq_ok h
    cases h
    obtain ⟨hwritten, helements, hpool⟩ := ih hrest
    rw [List.map_cons, writeItems, he]
    refine ⟨.cons ⟨e, r.size, rfl⟩ hwritten, ?_, hpool⟩
    rw [← helements]
    rfl

/-! ## Documents -/

theorem read_assemble (htypes : ∀ ty ∈ p.types, ty.Canonical) (hsize : p.Addressable) :
    Table.read (assemble p es) = .ok p.table := by
  have hfirst : (assemble p es).first? "TypeInfos" = some p.declarations := by
    simp [assemble, Element.first?, Pool.declarations, Element.hasTag]
  have htag : (assemble p es).tag ≠ "TypeInfos" := by simp [assemble]
  exact Table.read_of_declarations? (Table.declarations?_of_first? htag hfirst) htypes hsize

theorem itemElements_assemble (h : ∀ e ∈ es, e.tag ≠ "TypeInfos") :
    itemElements (assemble p es) = es := by
  have hitems : es.filter (·.tag ≠ "TypeInfos") = es := by
    rw [List.filter_eq_self]
    simpa using h
  rw [itemElements, assemble, Element.wrap_eq, Element.children_node, List.filter_cons_of_neg]
  · exact hitems
  · simp [Pool.declarations]

theorem printable_assemble (htypes : ∀ ty ∈ p.types, Printable ty.term)
    (hes : ∀ e ∈ es, Printable e) : Printable (assemble p es) := by
  have hdeclarations : Printable p.declarations :=
    .wrap (Table.printable_declarationsFrom htypes) (by decide)
  exact .wrap (List.forall_mem_cons.2 ⟨hdeclarations, hes⟩) (by decide)

theorem itemElements_agrees {t t' : Table} {e e' : Element} (h : Agrees t t' e e')
    (htag : e.tag = "Document") :
    List.Forall₂ (Agrees t t') (itemElements e) (itemElements e') := by
  refine List.rel_filter ?_ (h.children htag (by decide))
  intro c c' hc
  simp [hc.tag]

/-- A document of types that can be declared and of items that are read under them is read back from
its text. -/
theorem read_text_assemble (htypes : ∀ ty ∈ p.types, ty.Canonical ∧ Printable ty.term)
    (hsize : p.Addressable) (hprintable : ∀ e ∈ es, Printable e)
    (hes : List.Forall₂ (fun e item => Item.Form p.table e k item) es items) :
    ∃ root, Element.decodeString (assemble p es).toXml = .ok root ∧
      Table.read root = .ok p.table ∧
      (itemElements root).mapM (Item.read k p.table) = .ok items := by
  have hitems : itemElements (assemble p es) = es := by
    refine itemElements_assemble ?_
    intro e he
    obtain ⟨item, -, hform⟩ := exists_of_forall₂_left hes he
    exact hform.tag_ne
  -- What is read differs from what was written in its lines only.
  have hagrees : Agrees p.table p.table (assemble p es) ((assemble p es).placed 1) :=
    Element.agrees_of_same _ (Element.same_placed 1 _)
  refine ⟨(assemble p es).placed 1, ?_, ?_, ?_⟩
  · exact Element.decodeString_toXml (printable_assemble (fun ty h => (htypes ty h).2) hprintable)
  · exact Table.read_agrees hagrees (read_assemble (fun ty h => (htypes ty h).1) hsize)
  · have hread := itemElements_agrees hagrees rfl
    rw [hitems] at hread
    refine mapM_eq_ok.2 (forall₂_agrees (hes.imp ?_) hread)
    intro e item hform e' he
    exact Item.read_eq_ok.2 (hform.agrees he)

/-! ## Documents that were read -/

/-- Items that were read from a document are all written. The pool has only types of the table of
the document then, and the same elements are written again on a pool that begins with these. -/
theorem write_of_read (hclean : ∀ e ∈ es, e.Clean)
    (hes : List.Forall₂ (fun e item => Item.Form t e k item) es items) :
    ∃ as q, (Write.all (items.map Item.write)).on .empty = (.ok as, q) ∧ q.Sound ∧
      q.types ⊆ t.types ∧ (∀ a ∈ as, Printable a) ∧
      (∀ p : Pool, p.Sound → q.types <+: p.types →
        (Write.all (items.map Item.write)).on p = (.ok as, p)) ∧
      (q.Addressable → List.Forall₂ (fun a item => Item.Form q.table a k item) as items) := by
  have hgives : (Write.all (items.map Item.write)).Gives (items.flatMap Item.types)
      fun u as => List.Forall₂ (fun a item => Item.Form u a k item) as (items.map id) := by
    refine Write.Gives.all ?_
    intro item hitem
    obtain ⟨e, -, hform⟩ := exists_of_forall₂_right hes hitem
    exact hform.write_gives
  have hyields : (Write.all (items.map Item.write)).Yields fun as => ∀ a ∈ as, Printable a := by
    refine .all ?_
    intro w hw
    obtain ⟨item, hitem, rfl⟩ := List.mem_map.1 hw
    obtain ⟨e, he, hform⟩ := exists_of_forall₂_right hes hitem
    exact hform.write_yields (hclean e he)
  obtain ⟨as, hon, hagain, hmeans⟩ := hgives .empty Pool.empty_sound
  refine ⟨as, _, hon, Pool.empty_sound.addAll _, ?_, hyields _ _ _ hon, hagain, ?_⟩
  · intro ty hty
    rcases Pool.mem_types_addAll hty with hty | hty
    · cases hty
    · obtain ⟨item, hitem, hty⟩ := List.mem_flatMap.1 hty
      obtain ⟨e, -, hform⟩ := exists_of_forall₂_right hes hitem
      exact hform.types_subset hty
  · intro hsize
    simpa using hmeans hsize (Pool.table _) (List.prefix_refl _)

end Document

/-- Normal forms are stable. Items that were read from any document are all written, starting from
the empty pool. The text of the document that this gives is read, it declares the types of the pool
in their order, the same items are read from it, and writing these with its own types in the pool
gives the same document. -/
theorem normal_form_stable {k : ItemKind} {document : List Text.Scalar} {root : Element} {t : Table}
    {es : List Element} {items : List Item} (hdecode : Element.decode document = .ok root)
    (htable : Table.read root = .ok t) (hes : ∀ e ∈ es, e ∈ Document.itemElements root)
    (hread : es.mapM (Item.read k t) = .ok items) :
    let r := Document.writeItems .empty (items.map .ok)
    let d := Document.ofOutcomes r
    List.Forall₂ Outcome.IsWritten r.1 items ∧
      ∃ root', Element.decodeString d.toXml = .ok root' ∧ Table.read root' = .ok r.2.table ∧
        (Document.itemElements root').mapM (Item.read k r.2.table) = .ok items ∧
        d.same (Document.ofOutcomes (Document.writeItems (Pool.empty.addAll r.2.table.types)
          (items.map .ok))) = true := by
  intro r d
  have hclean := Element.clean_of_decode hdecode
  obtain ⟨htypes, hsize⟩ := Table.read_spec hclean htable
  have hforms : List.Forall₂ (fun e item => Item.Form t e k item) es items :=
    (mapM_eq_ok.1 hread).imp fun _ _ h => Item.read_eq_ok.1 h
  obtain ⟨as, q, hon, hsound, hsubset, hprintable, hagain, hmeans⟩ :=
    Document.write_of_read (fun e he => hclean.child (List.mem_of_mem_filter (hes e he))) hforms
  -- Types of the pool differ from each other, so there are no more of them than in the table.
  have hq : q.Addressable :=
    Nat.le_trans (hsound.nodup.subperm hsubset).length_le hsize
  obtain ⟨hwritten, helements, hpool⟩ := Document.writeItems_of_all hon
  have hd : d = Document.assemble q as := by rw [← helements, ← hpool]; rfl
  obtain ⟨root', hroot, htable', hitems⟩ := Document.read_text_assemble
    (fun ty h => htypes ty (hsubset h)) hq hprintable (hmeans hq)
  have hr : r.2 = q := hpool
  -- The pool that starts from the types of the document has the same types.
  have hsame := hsound.types_addAll_empty
  obtain ⟨-, helements', hpool'⟩ := Document.writeItems_of_all
    (hagain (Pool.empty.addAll q.types) (Pool.empty_sound.addAll _) (by rw [hsame]))
  refine ⟨hwritten, root', ?_, ?_, ?_, ?_⟩
  · rw [hd]
    exact hroot
  · rw [hr]
    exact htable'
  · rw [hr]
    exact hitems
  · have heq : Document.ofOutcomes (Document.writeItems (Pool.empty.addAll q.types)
        (items.map .ok)) = d := by
      rw [hd, Document.ofOutcomes, helements', hpool', Document.assemble, Document.assemble,
        Pool.declarations, Pool.declarations, hsame]
    rw [hr, Pool.table, heq]
    exact Element.same_self d

def sampleTypes : Pool :=
  ⟨[.integer, .integer], []⟩

/-- A difference whose sides refer to the two declarations. -/
def sampleElement : Element :=
  .node "Exp_Comparison" [⟨"op", "/="⟩] [.node "Id" [⟨"value", "x"⟩, ⟨"typref", "1"⟩] [],
    .node "Id" [⟨"value", "y"⟩, ⟨"typref", "0"⟩] []]

/-- The negated equality that the difference is lifted to. -/
def sampleItem : Item :=
  .goal (.not (.compare ⟨3⟩ (.ident ⟨.integer, []⟩ ⟨.plain, "x", 0⟩)
    (.ident ⟨.integer, []⟩ ⟨.plain, "y", 0⟩)))

theorem sampleElement_form : Item.Form sampleTypes.table sampleElement .lift sampleItem := by
  have hint : ∀ e : Element, e.attr? "typref" = some "0" ∨ e.attr? "typref" = some "1" →
      sampleTypes.table.typeOf e = .ok .integer := by
    rintro e (he | he)
    · exact Table.typeOf_eq_ok.2 ⟨"0", 0, he, by decide, rfl⟩
    · exact Table.typeOf_eq_ok.2 ⟨"1", 1, he, by decide, rfl⟩
  have hx : Expr.Reads sampleTypes.table (.node "Id" [⟨"value", "x"⟩, ⟨"typref", "1"⟩] [])
      (.ident ⟨.integer, []⟩ ⟨.plain, "x", 0⟩) := by
    refine Expr.read_of_form (.ident rfl rfl (by decide) (.plain rfl rfl rfl) ?_)
    exact Info.read_eq_ok.2 ⟨hint _ (.inr rfl), rfl⟩
  have hy : Expr.Reads sampleTypes.table (.node "Id" [⟨"value", "y"⟩, ⟨"typref", "0"⟩] [])
      (.ident ⟨.integer, []⟩ ⟨.plain, "y", 0⟩) := by
    refine Expr.read_of_form (.ident rfl rfl (by decide) (.plain rfl rfl rfl) ?_)
    exact Info.read_eq_ok.2 ⟨hint _ (.inl rfl), rfl⟩
  exact .lift (Pred.reads_of_joins (j := .compare ⟨3⟩ true _ _)
    (.compare rfl rfl (by decide) rfl rfl hx hy) rfl)

theorem sampleItem_table :
    (Document.writeItems .empty [.ok sampleItem]).2.table = ⟨[.integer]⟩ := by
  obtain ⟨e, hon, -⟩ := sampleElement_form.write_gives .empty Pool.empty_sound
  have hfirst := Pool.empty_sound.ref_of_not_mem (t := .integer) (by simp [Pool.empty])
  have hsecond := (Pool.empty_sound.ref_sound .integer).ref_of_getElem?
    (Pool.empty_sound.getElem?_ref .integer)
  have hpool : (Document.writeItems .empty [.ok sampleItem]).2 =
      Pool.empty.addAll [.integer, .integer] := by
    rw [Document.writeItems, hon]
    rfl
  rw [hpool, Pool.addAll_cons, Pool.addAll_cons, Pool.addAll_nil, hsecond, hfirst]
  rfl

theorem normal_form_stable_sample :
    ∃ root, Element.decodeString (Document.assemble sampleTypes [sampleElement]).toXml = .ok root ∧
      Table.read root = .ok sampleTypes.table ∧
      (Document.itemElements root).mapM (Item.read .lift sampleTypes.table) = .ok [sampleItem] ∧
      ∃ root', Element.decodeString
          (Document.ofOutcomes (Document.writeItems .empty [.ok sampleItem])).toXml = .ok root' ∧
        Table.read root' = .ok ⟨[.integer]⟩ ∧
        (Document.itemElements root').mapM (Item.read .lift ⟨[.integer]⟩) = .ok [sampleItem] := by
  have htypes : ∀ ty ∈ sampleTypes.types, ty.Canonical ∧ Printable ty.term := by
    intro ty hty
    have hty : ty = .integer := by simpa [sampleTypes] using hty
    rw [hty]
    exact ⟨.integer, .node (by decide) (by simp) (by decide)⟩
  have hsize : sampleTypes.Addressable := by
    unfold Pool.Addressable
    decide
  have hprintable : ∀ e ∈ [sampleElement], Printable e := by
    have hx : Printable (.node "Id" [⟨"value", "x"⟩, ⟨"typref", "1"⟩] []) :=
      .node (by decide) (by simp) (by decide)
    have hy : Printable (.node "Id" [⟨"value", "y"⟩, ⟨"typref", "0"⟩] []) :=
      .node (by decide) (by simp) (by decide)
    have h : Printable sampleElement := .node (by decide) (by simpa using ⟨hx, hy⟩) (by decide)
    simpa using h
  obtain ⟨root, hdecode, htable, hread⟩ := Document.read_text_assemble htypes hsize
    hprintable (.cons sampleElement_form .nil)
  obtain ⟨-, root', hdecode', htable', hread', -⟩ :=
    normal_form_stable hdecode htable (fun _ he => he) hread
  rw [List.map_singleton, sampleItem_table] at htable' hread'
  exact ⟨root, hdecode, htable, hread, root', hdecode', htable', hread'⟩

end BMethod
