import Interop.Proofs.CommentOptions
import Interop.Proofs.Phrases.Spelling
import Interop.Proofs.Yields

/-!
# Texts without comments

Inside a comment no notes are written, so a text there is made of words of the program, names of
declarations, which are identifiers, and type parameters.  Unless one of the latter or the name of a
platform type has a slash, the text has none, and then there is no comment in it.

* `Session.NamesOver` — all names that were given are of an alphabet; `Session.Arises` is why they
  are.
* **`renderWithin_bare`** — rendered inside a comment, a type has no note, and its text is of the
  alphabet of names.
* **`render_comments_cosmetic`** — what the options for comments change, and what they do not.
-/

namespace Interop

open Work

/-! ## Names that were given -/

/-- **A session about a table in which all names that were given are of an alphabet.** -/
structure Session.NamesOver (A : Alphabet) (table : SymbolTable) (s : Session) : Prop where
  table : s.table = table
  names : ∀ entry ∈ s.registry.records, Spelled A.code entry.2.name

variable {A : Alphabet} {table : SymbolTable}

/-- A name that is given is an identifier. -/
lemma Library.firstFree_over (library : Library) (path : DeclPath) :
    Spelled A.code (library.firstFree path) := fun _ hc =>
  A.plain _ (isPlain_of_isPart
    (Identifier.isPart_of_usable (firstFree_spells library path).usable hc))

namespace Session

/-- **Whatever is done, names stay of an alphabet.** -/
lemma namesOver_kept : Work.Kept Change fun s t => s.NamesOver A table → t.NamesOver A table where
  refl _ h := h
  trans h k hs := k (h hs)
  modify _ h s hs := by cases h <;> exact ⟨hs.table, hs.names⟩
  report _ _ _ _ hs := ⟨hs.table, hs.names⟩
  refer s library hs := by
    rw [refer_eq]
    split_ifs <;> exact ⟨hs.table, hs.names⟩
  allocate s path library lib _ hs := by
    refine ⟨hs.table, ?_⟩
    cases hrecord : s.registry.find? path with
    | some record =>
        rw [Registry.allocate_of_find? hrecord]
        exact hs.names
    | none =>
        rw [Registry.allocate_of_new hrecord]
        refine List.forall_mem_append.mpr ⟨hs.names, List.forall_mem_singleton.mpr ?_⟩
        exact lib.firstFree_over path
  inScope _ _ _ h hs := ⟨(h ⟨hs.table, hs.names⟩).table, (h ⟨hs.table, hs.names⟩).names⟩
  expanding _ _ _ h hs := ⟨(h ⟨hs.table, hs.names⟩).table, (h ⟨hs.table, hs.names⟩).names⟩
  detached _ _ h hs := ⟨(h ⟨hs.table, hs.names⟩).table, (h ⟨hs.table, hs.names⟩).names⟩

/-- **The sessions that there are**: from the start of a run on, whatever is put together from
operations may be done, and the session may be seen while an alias is being expanded or a computation
is detached. -/
inductive Arises (table : SymbolTable) : Session → Prop
  | start (mode : ReportMode) (policy : UnionPolicy) : Arises table (.start table mode policy)
  | exec {s : Session} {α : Type} {fails : Failure → Prop} {w : Work α} (before : Arises table s)
      (composed : w.Composed fails Change) : Arises table (w.exec s).2
  | pushAlias {s : Session} (id : Nat) (before : Arises table s) : Arises table (s.pushAlias id)
  | popAlias {s : Session} (before : Arises table s) : Arises table s.popAlias
  | detach {s : Session} (before : Arises table s) : Arises table s.detach
  | attach {s : Session} (before : Arises table s) : Arises table s.attach

/-- **In every session that there is, names are of any alphabet.** -/
lemma Arises.namesOver {s : Session} (h : s.Arises table) : s.NamesOver A table := by
  induction h with
  | start mode policy => exact ⟨rfl, by simp [Session.start]⟩
  | exec _ composed ih => exact composed.kept namesOver_kept _ ih
  | pushAlias _ _ ih | popAlias _ ih | detach _ ih | attach _ ih => exact ⟨ih.table, ih.names⟩

end Session

/-! ## Bare texts -/

/-- A rendered type without a note, whose text is of the alphabet of names. -/
structure Rendered.Bare (A : Alphabet) (r : Rendered) : Prop where
  note : r.note = none
  text : Spelled A.code r.text

namespace Rendered

lemma bare_plain {text : String} (h : Spelled A.code text) : (plain text).Bare A :=
  ⟨rfl, h⟩

lemma bare_annotated {o : RenderOptions} (ho : o.insideComment = true) {text : String}
    (h : Spelled A.code text) (note : String) : (annotated text note o).Bare A :=
  ⟨by simp [annotated, RenderOptions.annotates, ho], h⟩

/-- What stands for a type that cannot be written. -/
lemma bare_untyped {o : RenderOptions} (ho : o.insideComment = true) (note : String) :
    (annotated untypedText note o).Bare A :=
  bare_annotated ho (A.word (by decide)) note

lemma Bare.withComment {r : Rendered} (h : r.Bare A) : Spelled A.code r.withComment := by
  simpa only [Rendered.withComment, h.note] using h.text

end Rendered

lemma spelled_parameterList {params : List (Bool × String)} (h : ∀ p ∈ params, Spelled A.code p.2) :
    Spelled A.code (parameterList params) := by
  have hcomma : Spelled A.code ", " := A.word (by decide)
  have hlist : ∀ ps, ps ⊆ params → Spelled A.code (", ".intercalate (ps.map (·.2))) := by
    refine fun ps hps => spelled_intercalate hcomma fun text htext => ?_
    obtain ⟨p, hp, rfl⟩ := List.mem_map.mp htext
    exact h p (hps hp)
  have hrequired := hlist (params.takeWhile fun p => !p.1) (List.takeWhile_prefix _).subset
  have hoptional := hlist (params.dropWhile fun p => !p.1) (List.dropWhile_suffix _).subset
  unfold parameterList bracketed
  dsimp only
  split_ifs
  · exact hrequired
  · simp only [spelled_append]
    exact ⟨⟨⟨⟨hrequired, spelled_empty⟩, A.word (by decide)⟩, hoptional⟩, A.word (by decide)⟩
  · simp only [spelled_append]
    exact ⟨⟨⟨⟨hrequired, hcomma⟩, A.word (by decide)⟩, hoptional⟩, A.word (by decide)⟩

/-! ## Forms of types -/

/-- Platform types have names of an alphabet. -/
def SymbolTable.ExternalsOver (A : Alphabet) (table : SymbolTable) : Prop :=
  ∀ id symbol target, table.get? id = some symbol → symbol.externalName = some target →
    Spelled A.code target

/-- A computation that keeps names of the alphabet, and what its result is like. -/
abbrev Work.Writes {α : Type} (A : Alphabet) (table : SymbolTable) (w : Work α) (Q : α → Prop) :
    Prop :=
  w.Yields (Session.NamesOver A table) (fun _ => True) Q

/-- A way to render types that inside comments writes nothing but names and words. -/
def Renderer.WritesBare (A : Alphabet) (table : SymbolTable) (render : Renderer) : Prop :=
  ∀ ty (o : RenderOptions), ty.Over A → o.Over A → o.insideComment = true →
    (render ty o).Writes A table (Rendered.Bare A)

/-- What makes no lasting change keeps names of the alphabet. -/
lemma Work.Composed.keeps_namesOver {α : Type} {w : Work α}
    (h : w.Composed (fun _ => True) Session.NoChange) (s : Session) (hs : s.NamesOver A table) :
    (w.exec s).2.NamesOver A table :=
  (h.mono (fun _ h => h) fun _ h => h.elim).kept Session.namesOver_kept s hs

lemma Work.Composed.yields {α : Type} {w : Work α}
    (h : w.Composed (fun _ => True) Session.NoChange) : w.Writes A table fun _ => True :=
  .of_exec h.keeps_namesOver (fun _ _ _ _ => trivial) fun _ _ _ _ _ => trivial

section

variable (htable : table.Over A) (hexternal : table.ExternalsOver A)

include hexternal in
/-- The name of a declaration is of the alphabet. -/
lemma Work.nameOf_bare (id : Nat) : (Work.nameOf id).Writes A table
    fun name => ∀ text, name = some text → Spelled A.code text := by
  refine .get_bind fun s hs => ?_
  have hallocate : ∀ path library,
      (Work.allocate path library).Writes A table (Spelled A.code) := by
    intro path library
    refine .of_exec (Composed.allocate path library).keeps_namesOver
      (fun _ _ _ _ => trivial) ?_
    intro s hs name t hrun
    cases hlib : s.library? library with
    | none =>
        rw [exec_allocate_missing hlib] at hrun
        cases hrun
    | some lib =>
        rw [exec_allocate hlib] at hrun
        obtain ⟨hname, -⟩ := Prod.mk.inj hrun
        obtain rfl := Except.ok.inj hname
        cases hrecord : s.registry.find? path with
        | some record =>
            rw [Registry.allocate_of_find? hrecord]
            obtain ⟨before, after, hrecords, -⟩ := List.lookup_eq_some_iff.mp hrecord
            exact hs.names (path, record) (by simp [hrecords])
        | none =>
            rw [Registry.allocate_of_new hrecord]
            exact lib.firstFree_over path
  split
  · exact .pure (by simp)
  · rename_i symbol hid
    split
    · rename_i target htarget
      refine .pure fun text htext => ?_
      obtain rfl := Option.some.inj htext
      exact hexternal id symbol target (hs.table ▸ hid) htarget
    · split
      · exact .throw trivial
      · split_ifs
        · refine .bind (Composed.refer _).yields fun _ _ => ?_
          refine .bind (hallocate _ _) fun name hname => .pure fun text htext => ?_
          exact Option.some.inj htext ▸ hname
        · exact .pure (by simp)

variable {render : Renderer} (hcomposed : render.Composed (fun _ => True) Session.NoChange)
  (h : render.WritesBare A table) {o : RenderOptions} (ho : o.Over A)
  (hinside : o.insideComment = true)

include htable hcomposed in
lemma DistinctTypes.ofTypes_bare (steps : Nat) {tys : List Ty} (htys : ∀ ty ∈ tys, ty.Over A) :
    (ofTypes render steps tys).Writes A table fun d => ∀ ty ∈ d.types, ty.Over A := by
  have expected : ExpectsRendering fun _ => True := ⟨trivial, fun _ _ => trivial⟩
  refine .of_exec (ofTypes_composed expected hcomposed steps tys).keeps_namesOver
      (fun _ _ _ _ => trivial) ?_
  intro s hs d t hrun member hmember
  obtain ⟨ty, hty, parts, hparts, hpart⟩ := mem_types_ofTypes hcomposed hrun hmember
  exact components_over (hs.table ▸ htable) hparts (htys ty hty) member hpart

include htable hcomposed in
lemma DistinctTypes.representative_bare (steps : Nat) {tys : List Ty}
    (htys : ∀ ty ∈ tys, ty.Over A) :
    (representative render steps tys).Writes A table (Ty.Over A) := by
  refine .bind (ofTypes_bare htable hcomposed steps htys) fun d hd => .pure ?_
  unfold representative?
  cases hunion : Ty.ofUnion d.types with
  | none => trivial
  | some ty => exact Ty.over_ofUnion hd hunion

include h ho hinside

lemma renderSignature_bare {sig : Signature} (hsig : sig.Over A) :
    (renderSignature render o sig).Writes A table (Spelled A.code) := by
  obtain ⟨htypes, hparams, hresult⟩ := (Signature.over_iff A).mp hsig
  refine .bind (h sig.result o hresult ho hinside) fun result hresult => ?_
  refine .bind (.mapM (Q := fun p : Bool × String => Spelled A.code p.2) fun p hp => ?_)
    fun params hparams => .pure ?_
  · have htype := ((Param.over_iff A).mp (hparams p hp)).2
    exact .bind (h p.type o htype ho hinside) fun _ htype => .pure htype.withComment
  · simp only [spelled_append]
    exact ⟨⟨⟨⟨⟨⟨hresult.withComment, A.word (by decide)⟩, A.word (by decide)⟩,
      spelled_inAngles htypes⟩, A.word (by decide)⟩, spelled_parameterList hparams⟩,
      A.word (by decide)⟩

lemma renderFunction_bare {sig : Signature} (hsig : sig.Over A) :
    (renderFunction render sig o).Writes A table (Rendered.Bare A) := by
  unfold renderFunction
  split_ifs
  · exact .table_bind fun s _ => .pure (Rendered.bare_annotated hinside (A.word (by decide)) _)
  · have hnested : o.nested.Over A := ho.of_bindings rfl rfl
    refine .bind (.within (fun _ hs => ⟨hs.table, hs.names⟩) (fun _ hs => ⟨hs.table, hs.names⟩)
      (renderSignature_bare h hnested hinside hsig)) fun text htext => .pure ?_
    exact Rendered.bare_plain htext

lemma renderAlias_bare (id : Nat) {symbol : Symbol} (hsymbol : symbol.Over A) {args : List Ty}
    (hargs : ∀ ty ∈ args, ty.Over A) :
    (renderAlias render id symbol args o).Writes A table (Rendered.Bare A) := by
  have hexpanding : ∀ {body : Ty}, body.Over A →
      (Work.expanding id (render body { o with typeArguments := none })).Writes A table
        (Rendered.Bare A) := fun hbody =>
    .within (fun _ hs => ⟨hs.table, hs.names⟩) (fun _ hs => ⟨hs.table, hs.names⟩)
      (h _ _ hbody (ho.of_bindings rfl rfl) hinside)
  unfold renderAlias
  cases haliased : symbol.aliased with
  | none => exact .pure (Rendered.bare_untyped hinside _)
  | some body =>
      have hbody := hsymbol.aliased body haliased
      refine .get_bind fun s _ => ?_
      split_ifs
      · exact .bind (Composed.reportUnsupported _).yields
          fun _ _ => .pure (Rendered.bare_untyped hinside _)
      · exact hexpanding hbody
      · exact hexpanding (Ty.over_substitute body (over_aliasBindings hargs) hbody)

include hexternal

lemma renderNominal_bare (id : Nat) (symbol : Symbol) {args : List Ty}
    (hargs : ∀ ty ∈ args, ty.Over A) :
    (renderNominal render id symbol args o).Writes A table (Rendered.Bare A) := by
  refine .bind (Work.nameOf_bare hexternal id) fun name hname => ?_
  cases name with
  | none => exact .pure (Rendered.bare_untyped hinside _)
  | some name =>
      have hspelled := hname name rfl
      dsimp only
      split_ifs
      · exact .pure (Rendered.bare_plain hspelled)
      · have hargument : o.argument.Over A := ho.of_bindings rfl rfl
        refine .bind (.mapM (Q := Spelled A.code) fun arg harg => ?_) fun texts htexts => .pure ?_
        · exact .bind (h arg _ (hargs arg harg) hargument hinside) fun _ hr => .pure hr.withComment
        · exact Rendered.bare_plain (spelled_append.mpr ⟨hspelled, spelled_inAngles htexts⟩)

include htable

lemma renderSymbol_bare (id : Nat) {args : List Ty} (hargs : ∀ ty ∈ args, ty.Over A) :
    (renderSymbol render id args o).Writes A table (Rendered.Bare A) := by
  refine .table_bind fun s hs => ?_
  cases hid : s.table.get? id with
  | none =>
      exact .bind (Composed.reportUnresolved _).yields
        fun _ _ => .pure (Rendered.bare_untyped hinside _)
  | some symbol =>
      have hsymbol : symbol.Over A := htable id symbol (hs.table ▸ hid)
      dsimp only
      cases symbol.kind with
      | «alias» => exact renderAlias_bare h ho hinside id hsymbol hargs
      | klass | interface | enum => exact renderNominal_bare hexternal h ho hinside id symbol hargs
      | function | «variable» | typeParameter | nameSpace =>
          exact .bind (Composed.reportUnsupported _).yields
            fun _ _ => .pure (Rendered.bare_untyped hinside _)

omit htable hexternal in
lemma renderShape_bare {members : List Member} (hmembers : Member.AllOver A members) :
    (renderShape render members o).Writes A table (Rendered.Bare A) := by
  unfold renderShape
  split
  · exact renderFunction_bare h ho hinside hmembers.1.2
  · exact .table_bind fun s _ => .pure (Rendered.bare_untyped hinside _)

omit hexternal in
include hcomposed in
lemma renderUnion_bare (steps : Nat) (ty : Ty) {members : List Ty}
    (hmembers : ∀ member ∈ members, member.Over A) :
    (renderUnion render steps ty members o).Writes A table (Rendered.Bare A) := by
  have hend : ∀ text, Spelled A.code text → Work.Writes A table
      (if members.length > 1 then do return Rendered.annotated text (ty.text (← Work.table)) o
        else return Rendered.plain text) (Rendered.Bare A) := by
    intro text htext
    split_ifs
    · exact .table_bind fun s _ => .pure (Rendered.bare_annotated hinside htext _)
    · exact .pure (Rendered.bare_plain htext)
  refine .bind (DistinctTypes.ofTypes_bare htable hcomposed steps hmembers) fun merged hmerged => ?_
  refine .bind (.of_exec
    (Renderer.concrete_composed hcomposed o.display merged.types).keeps_namesOver
    (fun _ _ _ _ => trivial) fun _ _ concrete _ hrun => mem_of_filterM hrun)
    fun concrete hconcrete => ?_
  refine .get_bind fun s _ => ?_
  dsimp only
  cases hshown : shownMember (o.policy.getD s.policy) concrete with
  | none => exact .bind (.pure (A.word (by decide))) hend
  | some member =>
      have hmember := hmerged member (hconcrete (mem_of_shownMember hshown))
      have hdisplay : o.display.Over A := ho.of_bindings rfl rfl
      exact .bind (h member _ hmember hdisplay hinside) fun r hr => .bind (.pure hr.text) hend

end

/-! ## All forms -/

/-- **Inside a comment no type has a note**, and its text is of the alphabet of names. -/
theorem renderWithin_bare (htable : table.Over A) (hexternal : table.ExternalsOver A) (depth : Nat) :
    (renderWithin depth).WritesBare A table := by
  induction depth with
  | zero => exact fun _ _ _ _ _ => .throw trivial
  | succ depth ih =>
      have hcomposed : (renderWithin depth).Composed (fun _ => True) Session.NoChange :=
        renderWithin_composed ⟨trivial, fun _ _ => trivial⟩ depth
      intro ty o hty ho hinside
      have hargument : o.argument.Over A := ho.of_bindings rfl rfl
      cases ty with
      | primitive kind =>
          cases kind with
          | symbol | bigint => exact .pure (Rendered.bare_untyped hinside _)
          | void | undefined | never =>
              simp only [renderWithin, renderPrimitive]
              split_ifs <;> exact .pure (Rendered.bare_plain (A.word (by decide)))
          | _ => exact .pure (Rendered.bare_plain (A.word (by decide)))
      | nominal symbol args =>
          exact renderSymbol_bare htable hexternal ih ho hinside symbol ((Ty.allOver_iff A).mp hty)
      | «alias» symbol =>
          refine renderSymbol_bare htable hexternal ih ho hinside symbol ?_
          cases hargs : o.typeArguments with
          | none => simp
          | some args => exact ho.typeArguments args hargs
      | function sig => exact renderFunction_bare ih ho hinside hty
      | array element =>
          refine .bind (DistinctTypes.representative_bare htable hcomposed depth
            (List.forall_mem_singleton.mpr hty)) fun element helement => ?_
          refine .bind (ih element _ helement hargument hinside) fun r hr => .pure ?_
          refine Rendered.bare_plain ?_
          simp only [spelled_append]
          exact ⟨⟨A.word (by decide), hr.withComment⟩, A.word (by decide)⟩
      | tuple elements =>
          refine .bind (DistinctTypes.representative_bare htable hcomposed depth
            ((Ty.allOver_iff A).mp hty)) fun element helement => ?_
          refine .bind (ih element _ helement (ho.of_bindings rfl rfl) hinside) fun r hr => ?_
          refine .table_bind fun s _ => .pure (Rendered.bare_annotated hinside ?_ _)
          simp only [spelled_append]
          exact ⟨⟨A.word (by decide), hr.withComment⟩, A.word (by decide)⟩
      | shape members => exact renderShape_bare ih ho hinside hty
      | param name =>
          simp only [renderWithin]
          cases hbound : o.bindings.bind (·.lookup name) with
          | some bound =>
              obtain ⟨b, hb, hlookup⟩ := Option.bind_eq_some_iff.mp hbound
              exact ih bound o ((ho.bindings b hb).lookup hlookup) ho hinside
          | none =>
              refine .get_bind fun s _ => ?_
              split_ifs
              · exact .pure (Rendered.bare_plain hty)
              · exact .pure (Rendered.bare_untyped hinside _)
      | literal kind text =>
          refine .pure (Rendered.bare_annotated hinside ?_ _)
          cases kind <;> exact A.word (by decide)
      | union members =>
          exact renderUnion_bare htable hcomposed ih ho hinside depth _ ((Ty.allOver_iff A).mp hty)
      | intersection members =>
          exact renderUnion_bare htable hcomposed ih ho hinside depth _ ((Ty.allOver_iff A).mp hty)
      | raw text => exact .pure (Rendered.bare_untyped hinside _)

/-! ## Two alphabets -/

/-- Names and notes of any kind. -/
def Alphabet.any : Alphabet :=
  ⟨fun _ => True, fun _ => True, fun _ _ => trivial, fun _ h => h⟩

/-- Names without slashes, and notes of any kind. -/
def Alphabet.slashFree : Alphabet where
  code c := c ≠ '/'
  note _ := True
  plain c h := by
    rintro rfl
    exact absurd h (by decide)
  widens _ _ := trivial

lemma spelled_any (text : String) : Spelled Alphabet.any.code text :=
  fun _ _ => trivial

mutual

lemma Ty.over_any : ∀ ty : Ty, ty.Over .any
  | .primitive _ => trivial
  | .nominal _ args => Ty.allOver_any args
  | .function sig => Signature.over_any sig
  | .array element => Ty.over_any element
  | .tuple elements => Ty.allOver_any elements
  | .shape members => Member.allOver_any members
  | .alias _ => trivial
  | .param name => spelled_any name
  | .literal _ text => spelled_any text
  | .union members => Ty.allOver_any members
  | .intersection members => Ty.allOver_any members
  | .raw text => spelled_any text

lemma Ty.allOver_any : ∀ tys : List Ty, Ty.AllOver .any tys
  | [] => trivial
  | ty :: tys => ⟨Ty.over_any ty, Ty.allOver_any tys⟩

lemma Signature.over_any : ∀ sig : Signature, sig.Over .any
  | ⟨_, params, result⟩ =>
      ⟨fun name _ => spelled_any name, Param.allOver_any params, Ty.over_any result⟩

lemma Param.over_any : ∀ p : Param, p.Over .any
  | ⟨name, type, _, _⟩ => ⟨spelled_any name, Ty.over_any type⟩

lemma Param.allOver_any : ∀ ps : List Param, Param.AllOver .any ps
  | [] => trivial
  | p :: ps => ⟨Param.over_any p, Param.allOver_any ps⟩

lemma MemberKind.over_any : ∀ kind : MemberKind, kind.Over .any
  | .property type _ _ => Ty.over_any type
  | .method sig _ => Signature.over_any sig
  | .call sig => Signature.over_any sig
  | .construct sig => Signature.over_any sig
  | .index sig => Signature.over_any sig
  | .nested _ => trivial

lemma Member.over_any : ∀ m : Member, m.Over .any
  | ⟨name, kind, _, _⟩ => ⟨spelled_any (name.getD ""), MemberKind.over_any kind⟩

lemma Member.allOver_any : ∀ ms : List Member, Member.AllOver .any ms
  | [] => trivial
  | m :: ms => ⟨Member.over_any m, Member.allOver_any ms⟩

end

lemma SymbolTable.over_any (table : SymbolTable) : table.Over .any := fun _ s _ =>
  { name := spelled_any s.name
    segments := fun segment _ => spelled_any segment
    typeParams := fun name _ => spelled_any name
    aliased := fun body _ => body.over_any
    members := fun m _ => m.over_any
    bases := fun ty _ => ty.over_any }

lemma RenderOptions.over_any (o : RenderOptions) : o.Over .any :=
  ⟨fun _ _ ty _ => ty.over_any, fun _ _ entry _ => entry.2.over_any⟩

/-! ## Options for comments -/

/-- **Options for comments are cosmetic.**  With two options that differ in nothing else, a type is
rendered twice or fails twice in the same way; the session afterwards is the same, and so is whether
the text names a type.  Inside a comment a type has no note.  If no type parameter and no name of a
platform type has a slash, in the table, in the type or in the types that the options carry, then its
text has none either, and therefore no comment at any depth. -/
theorem render_comments_cosmetic (s : Session) :
    (∀ depth ty (o o' : RenderOptions), o.CommentsAside o' →
      ((renderWithin depth ty o).exec s).2 = ((renderWithin depth ty o').exec s).2 ∧
      ((∃ failure, ((renderWithin depth ty o).exec s).1 = .error failure ∧
          ((renderWithin depth ty o').exec s).1 = .error failure) ∨
        ∃ r r', ((renderWithin depth ty o).exec s).1 = .ok r ∧
          ((renderWithin depth ty o').exec s).1 = .ok r' ∧ r.isConcrete = r'.isConcrete)) ∧
    ∀ depth ty (o : RenderOptions) r t, o.insideComment = true →
      (renderWithin depth ty o).exec s = (.ok r, t) →
      r.note = none ∧
      ∀ table, s.Arises table → table.Over .slashFree → table.ExternalsOver .slashFree →
        ty.Over .slashFree → o.Over .slashFree → '/' ∉ r.text.toList := by
  refine ⟨fun depth ty o o' ho => ?same, fun depth ty o r t hinside hrun => ⟨?note, ?text⟩⟩
  case same =>
    obtain ⟨houtcome, hsession⟩ := renderWithin_ignoresComments depth ty o o' ho s
    refine ⟨hsession.symm, ?_⟩
    cases hrun : ((renderWithin depth ty o).exec s).1 with
    | error failure =>
        rw [hrun] at houtcome
        cases hrun' : ((renderWithin depth ty o').exec s).1 with
        | error failure' =>
            rw [hrun'] at houtcome
            cases houtcome
            exact Or.inl ⟨failure, rfl, rfl⟩
        | ok r' =>
            rw [hrun'] at houtcome
            cases houtcome
    | ok r =>
        rw [hrun] at houtcome
        cases hrun' : ((renderWithin depth ty o').exec s).1 with
        | error failure' =>
            rw [hrun'] at houtcome
            cases houtcome
        | ok r' =>
            rw [hrun'] at houtcome
            cases houtcome with
            | ok halike => exact Or.inr ⟨r, r', rfl, rfl, halike.isConcrete⟩
  case note =>
    have hnames : s.NamesOver .any s.table := ⟨rfl, fun entry _ => spelled_any entry.2.name⟩
    have hbare := renderWithin_bare s.table.over_any (fun _ _ target _ _ => spelled_any target) depth
      ty o ty.over_any o.over_any hinside s hnames
    exact (hbare.2.1 r (congrArg Prod.fst hrun)).note
  case text =>
    intro table harises htable hexternal hty ho hslash
    have hbare := renderWithin_bare htable hexternal depth ty o hty ho hinside s harises.namesOver
    exact (hbare.2.1 r (congrArg Prod.fst hrun)).text '/' hslash rfl

/-- A list of what could not be resolved, with its note and inside a comment. -/
theorem render_comments_cosmetic_unresolved :
    let ty : Ty := .array (.raw "a/b")
    let s : Session := .start ⟨#[]⟩ .batch .untyped
    ∃ r r' : Rendered, ((renderWithin 3 ty {}).exec s).1 = .ok r ∧
      ((renderWithin 3 ty { insideComment := true }).exec s).1 = .ok r' ∧
      r.text = "List<dynamic /*a/b*/>" ∧ r'.text = "List<dynamic>" ∧ r'.note = none ∧
      r.isConcrete = r'.isConcrete ∧ '/' ∉ r'.text.toList := by
  intro ty s
  have hrun : (renderWithin 3 ty {}).exec s = (.ok ⟨"List<dynamic /*a/b*/>", none⟩, s) :=
    Prod.ext (by decide +kernel) rfl
  have hrun' : (renderWithin 3 ty { insideComment := true }).exec s =
      (.ok ⟨"List<dynamic>", none⟩, s) := Prod.ext (by decide +kernel) rfl
  have hover : SymbolTable.Over .slashFree ⟨#[]⟩ := fun id symbol h => by cases h
  have hexternal : SymbolTable.ExternalsOver .slashFree ⟨#[]⟩ := fun id symbol _ h => by cases h
  obtain ⟨-, ⟨_, herror, -⟩ | ⟨r, r', hr, hr', hconcrete⟩⟩ := (render_comments_cosmetic s).1 3 ty {}
    { insideComment := true } ⟨rfl, rfl, rfl, rfl⟩
  · rw [hrun] at herror
    cases herror
  · obtain ⟨hnote, htext⟩ :=
      (render_comments_cosmetic s).2 3 ty { insideComment := true } _ s rfl hrun'
    have hslash := htext ⟨#[]⟩ (.start .batch .untyped) hover hexternal (fun _ _ => trivial)
      ⟨by simp, by simp⟩
    rw [hrun] at hr
    rw [hrun'] at hr'
    obtain rfl := Except.ok.inj hr
    obtain rfl := Except.ok.inj hr'
    exact ⟨_, _, congrArg Prod.fst hrun, congrArg Prod.fst hrun', rfl, rfl, hnote, hconcrete, hslash⟩

/-- A type that the options carry may have a type parameter with a slash, which then stands in the
text although neither the table nor the rendered type has any. -/
theorem render_slash_from_bindings :
    let ty : Ty := .param "T"
    let s : Session := .start ⟨#[]⟩ .batch .untyped
    let bindings : Bindings := [("T", .function ⟨["a/b"], [], .primitive .number⟩)]
    let o : RenderOptions := { insideComment := true, bindings := some bindings }
    s.Arises ⟨#[]⟩ ∧ s.table.Over .slashFree ∧ s.table.ExternalsOver .slashFree ∧
      ty.Over .slashFree ∧ o.insideComment = true ∧
      (renderWithin 4 ty o).exec s = (.ok ⟨"num Function<a/b>()", none⟩, s) ∧
      '/' ∈ "num Function<a/b>()".toList := by
  intro ty s bindings o
  have htable : SymbolTable.Over .slashFree ⟨#[]⟩ := fun id symbol h => by cases h
  have hexternal : SymbolTable.ExternalsOver .slashFree ⟨#[]⟩ := fun id symbol _ h => by cases h
  have hty : ty.Over .slashFree := fun c hc hslash => absurd (hslash ▸ hc) (by decide)
  exact ⟨.start .batch .untyped, htable, hexternal, hty, rfl, Prod.ext (by decide +kernel) rfl,
    by decide⟩

end Interop
