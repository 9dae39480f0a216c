import Interop.Proofs.Texts.Reading

/-!
# What can be seen in texts

The text of a type shows all there is to it but the kinds of its leaves and where its members are
declared.  Brackets are written around operands only, so what a text shows is found by reading it
back: the first characters of what comes next tell how it goes on.

* `Sketch`, `Ty.sketch` — what can be seen in the text of a type.
* `Ty.Legible` — types in whose texts the names can be told from what stands around them.
* `Sketch.read` — a reader of the texts of types.
* **`Sketch.readSignature_reads`**, **`Sketch.readMember_reads`** — signatures and members are read
  back if the types in them are.
-/

namespace Interop

/-! ## Sketches -/

mutual

/-- **What can be seen in the text of a type.**  The leaves are names without arguments. -/
inductive Sketch where
  | named (name : String) (args : List Sketch)
  | function (signature : SignatureSketch)
  | array (element : Sketch)
  | tuple (elements : List Sketch)
  | shape (members : List MemberSketch)
  | union (members : List Sketch)
  | intersection (members : List Sketch)

/-- What can be seen of a signature. -/
structure SignatureSketch where
  typeParams : List String
  params : List ParamSketch
  result : Sketch

/-- What can be seen of a parameter. -/
structure ParamSketch where
  name : String
  type : Sketch
  optional : Bool
  rest : Bool

/-- What can be seen of a member under its name. -/
inductive MemberKindSketch where
  | property (type : Sketch) (optional readonly : Bool)
  | method (signature : SignatureSketch) (optional : Bool)
  | call (signature : SignatureSketch)
  | construct (signature : SignatureSketch)
  | index (signature : SignatureSketch)
  | nested (name : String)

/-- What can be seen of a member. -/
structure MemberSketch where
  name : Option String
  kind : MemberKindSketch
  isStatic : Bool

end

section

variable (table : SymbolTable)

mutual

/-- What can be seen of a type. -/
def Ty.sketch : Ty → Sketch
  | .primitive kind => .named kind.keyword []
  | .nominal symbol args => .named (table.displayName symbol) (Ty.sketches args)
  | .function signature => .function signature.sketch
  | .array element => .array element.sketch
  | .tuple elements => .tuple (Ty.sketches elements)
  | .shape members => .shape (Member.sketches members)
  | .alias symbol => .named (table.displayName symbol) []
  | .param name => .named name []
  | .literal _ text => .named text []
  | .union members => .union (Ty.sketches members)
  | .intersection members => .intersection (Ty.sketches members)
  | .raw text => .named text []

/-- What can be seen of several types. -/
def Ty.sketches : List Ty → List Sketch
  | [] => []
  | ty :: tys => ty.sketch :: Ty.sketches tys

/-- What can be seen of a signature. -/
def Signature.sketch : Signature → SignatureSketch
  | ⟨typeParams, params, result⟩ => ⟨typeParams, Param.sketches params, result.sketch⟩

/-- What can be seen of a parameter. -/
def Param.sketch : Param → ParamSketch
  | ⟨name, type, optional, rest⟩ => ⟨name, type.sketch, optional, rest⟩

/-- What can be seen of several parameters. -/
def Param.sketches : List Param → List ParamSketch
  | [] => []
  | p :: ps => p.sketch :: Param.sketches ps

/-- What can be seen of a member under its name. -/
def MemberKind.sketch : MemberKind → MemberKindSketch
  | .property type optional readonly => .property type.sketch optional readonly
  | .method signature optional => .method signature.sketch optional
  | .call signature => .call signature.sketch
  | .construct signature => .construct signature.sketch
  | .index signature => .index signature.sketch
  | .nested symbol => .nested (table.qualifiedName symbol)

/-- What can be seen of a member. -/
def Member.sketch : Member → MemberSketch
  | ⟨name, kind, isStatic, _⟩ => ⟨name, kind.sketch, isStatic⟩

/-- What can be seen of several members. -/
def Member.sketches : List Member → List MemberSketch
  | [] => []
  | m :: ms => m.sketch :: Member.sketches ms

end

/-! ## Legible types -/

/-- Members are named as their kind asks for. -/
def MemberKind.NamedAs (name : Option String) : MemberKind → Prop
  | .property .. | .method .. => ∃ word, name = some word ∧ IsWord word
  | .call _ | .construct _ | .index _ | .nested _ => name = none

mutual

/-- **Types in whose texts the names can be told** from what stands around them.  Everything in them
is resolved, and unions and intersections have several members. -/
def Ty.Legible : Ty → Prop
  | .primitive _ => True
  | .nominal symbol args => IsWord (table.displayName symbol) ∧ Ty.AllLegible args
  | .function signature => signature.Legible
  | .array element => element.Legible
  | .tuple elements => Ty.AllLegible elements
  | .shape members => Member.AllLegible members
  | .alias symbol => IsWord (table.displayName symbol)
  | .param name => IsWord name
  | .literal _ text => IsWord text
  | .union members => 2 ≤ members.length ∧ Ty.AllLegible members
  | .intersection members => 2 ≤ members.length ∧ Ty.AllLegible members
  | .raw _ => False

/-- All of several types are legible. -/
def Ty.AllLegible : List Ty → Prop
  | [] => True
  | ty :: tys => ty.Legible ∧ Ty.AllLegible tys

/-- The names and types in a signature are legible. -/
def Signature.Legible : Signature → Prop
  | ⟨typeParams, params, result⟩ =>
    (∀ name ∈ typeParams, IsWord name) ∧ Param.AllLegible params ∧ result.Legible

/-- A parameter is legible, and is not optional if it takes all remaining arguments. -/
def Param.Legible : Param → Prop
  | ⟨name, type, optional, rest⟩ => IsWord name ∧ type.Legible ∧ ¬(optional = true ∧ rest = true)

/-- All of several parameters are legible. -/
def Param.AllLegible : List Param → Prop
  | [] => True
  | p :: ps => p.Legible ∧ Param.AllLegible ps

/-- The types in a member are legible; it is no declaration inside a class, and an index has no type
parameters. -/
def MemberKind.Legible : MemberKind → Prop
  | .property type _ _ => type.Legible
  | .method signature _ | .call signature | .construct signature => signature.Legible
  | .index signature => signature.typeParams = [] ∧ signature.Legible
  | .nested _ => False

/-- A member is legible and named as its kind asks for. -/
def Member.Legible : Member → Prop
  | ⟨name, kind, _, _⟩ => kind.NamedAs name ∧ kind.Legible

/-- All of several members are legible. -/
def Member.AllLegible : List Member → Prop
  | [] => True
  | m :: ms => m.Legible ∧ Member.AllLegible ms

end

end

/-! ## A reader of types -/

namespace Sketch

open Reader

/-- Whether a text goes on as the parameters of a signature do after their bracket. -/
def opensParams (text : List Char) : Bool :=
  text.head? ∈ [some ')', some '.'] ∨
    (text.dropWhile (· ∉ punctuation)).head? ∈ [some ':', some '?']

/-- Whether a text begins as a signature. -/
def opensSignature (text : List Char) : Bool :=
  text.head? ∈ [some '<', some '(']

/-- Whether a text begins as a function type, and not with the bracket of an operand. -/
def opensFunction (text : List Char) : Bool :=
  text.head? = some '<' ∨ text.head? = some '(' ∧ opensParams text.tail

section

variable (n : Nat) (type : Reader Sketch)

/-- Read a parameter. -/
def readParam : Reader ParamSketch := do
  let rest ← skip "..."
  let name ← word
  let optional ← skip "?"
  expect ": "
  return ⟨name, ← type, optional, rest⟩

/-- Read a signature, with what is written before its result. -/
def readSignature (arrow : String) : Reader SignatureSketch := do
  let typeParams ← angled word n
  expect "("
  let params ← closed ", " ")" (readParam type) n
  expect arrow
  return ⟨typeParams, params, ← type⟩

/-- Read a property or method, under its name. -/
def readNamed : Reader (Option String × MemberKindSketch) := do
  let name ← word
  let optional ← skip "?"
  choose ": " (do return (some name, .property (← type) optional false))
    (do return (some name, .method (← readSignature n type ": ") optional))

/-- Read a member without its modifiers. -/
def readKind : Reader (Option String × MemberKindSketch) :=
  choose "new " (do return (none, .construct (← readSignature n type ": "))) <|
  choose "[" (do
    let params ← closed ", " "]: " (readParam type) n
    return (none, .index ⟨[], params, ← type⟩)) <|
  choose "readonly " (do
    let name ← word
    let optional ← skip "?"
    expect ": "
    return (some name, .property (← type) optional true)) <|
  branch opensSignature (do return (none, .call (← readSignature n type ": "))) (readNamed n type)

/-- Read a member. -/
def readMember : Reader MemberSketch := do
  let isStatic ← skip "static "
  let member ← readKind n type
  return ⟨member.1, member.2, isStatic⟩

/-- Read a type that needs no brackets as the element of an array. -/
def readPrimary : Reader Sketch :=
  choose "(" (upTo ")" type) <|
  choose "[" (do return .tuple (← closed ", " "]" type n)) <|
  choose "\x7b\x7d" (return .shape []) <|
  choose "\x7b " (do return .shape (← upTo " \x7d" (separated "; " (readMember n type) n))) do
    let name ← word
    return .named name (← angled type n)

/-- Read what makes arrays of a type. -/
def readSuffixes : Nat → Sketch → Reader Sketch
  | 0, sketch => return sketch
  | n + 1, sketch => choose "[]" (readSuffixes n (.array sketch)) (return sketch)

/-- Read an operand of a union or intersection. -/
def readOperand : Reader Sketch := do
  readSuffixes n (← readPrimary n type)

/-- Read the operands after the first one, if there are any. -/
def readJoined (first : Sketch) : Reader Sketch :=
  choose "|" (do return .union (first :: (← separated "|" (readOperand n type) n))) <|
  choose "&" (do return .intersection (first :: (← separated "&" (readOperand n type) n)))
    (return first)

/-- Read a type. -/
def readType : Reader Sketch :=
  branch opensFunction (do return .function (← readSignature n type " => "))
    (readOperand n type >>= readJoined n type)

end

/-- Read a type, with brackets in brackets up to a number. -/
def read : Nat → Reader Sketch
  | 0 => failure
  | n + 1 => readType n (read n)

end Sketch

/-! ## Texts piece by piece -/

section

variable (table : SymbolTable)

lemma Ty.texts_eq (operand : Bool) (tys : List Ty) :
    Ty.texts table operand tys = tys.map (·.textAs table operand) := by
  induction tys with
  | nil => rfl
  | cons ty tys ih => exact congrArg (ty.textAs table operand :: ·) ih

lemma Param.texts_eq (params : List Param) :
    Param.texts table params = params.map (·.text table) := by
  induction params with
  | nil => rfl
  | cons p ps ih => exact congrArg (p.text table :: ·) ih

lemma Member.texts_eq (members : List Member) :
    Member.texts table members = members.map (·.text table) := by
  induction members with
  | nil => rfl
  | cons m ms ih => exact congrArg (m.text table :: ·) ih

lemma Ty.sketches_eq (tys : List Ty) : Ty.sketches table tys = tys.map (·.sketch table) := by
  induction tys with
  | nil => rfl
  | cons ty tys ih => exact congrArg (ty.sketch table :: ·) ih

lemma Param.sketches_eq (params : List Param) :
    Param.sketches table params = params.map (·.sketch table) := by
  induction params with
  | nil => rfl
  | cons p ps ih => exact congrArg (p.sketch table :: ·) ih

lemma Member.sketches_eq (members : List Member) :
    Member.sketches table members = members.map (·.sketch table) := by
  induction members with
  | nil => rfl
  | cons m ms ih => exact congrArg (m.sketch table :: ·) ih

lemma Signature.textWith_eq (arrow : String) (s : Signature) : s.textWith table arrow =
    inAngles s.typeParams ++ ("(" ++ ((", ".intercalate (s.params.map (·.text table)) ++ ")") ++
      (arrow ++ s.result.textAs table false))) := by
  obtain ⟨typeParams, params, result⟩ := s
  simp only [Signature.textWith, inParens, Param.texts_eq, String.append_assoc]

lemma Param.text_eq (p : Param) : p.text table = (if p.rest then "..." else "") ++ (p.name ++
    ((if p.optional && !p.rest then "?" else "") ++ (": " ++ p.type.textAs table false))) := by
  obtain ⟨name, type, optional, rest⟩ := p
  simp only [Param.text, String.append_assoc]

end

/-! ## What may follow -/

/-- What may follow a type. -/
def typeEnds : List Char := [' ', ',', ';', ')', ']', '>']

/-- What may follow an operand. -/
def operandEnds : List Char := '|' :: '&' :: typeEnds

/-- What may follow the element of an array. -/
def primaryEnds : List Char := '[' :: operandEnds

namespace Sketch

section

variable (table : SymbolTable)

/-- A reader takes the text of a type. -/
abbrev ReadsType (reader : Reader Sketch) (ty : Ty) : Prop :=
  Reads reader (Ends typeEnds) (ty.textAs table false) (ty.sketch table)

/-- A reader takes the text of an operand. -/
abbrev ReadsOperand (reader : Reader Sketch) (ty : Ty) : Prop :=
  Reads reader (Ends operandEnds) (ty.textAs table true) (ty.sketch table)

/-- A reader takes the text of a parameter. -/
abbrev ReadsParam (reader : Reader ParamSketch) (p : Param) : Prop :=
  Reads reader (Ends typeEnds) (p.text table) (p.sketch table)

/-- A reader takes the text of a member. -/
abbrev ReadsMember (reader : Reader MemberSketch) (m : Member) : Prop :=
  Reads reader (Ends typeEnds) (m.text table) (m.sketch table)

end

variable {table : SymbolTable} {n : Nat} {type : Reader Sketch}

lemma readParam_reads {p : Param} (hname : IsWord p.name)
    (hflags : ¬(p.optional = true ∧ p.rest = true))
    (htype : ReadsType table type p.type) : ReadsParam table (readParam type) p := by
  rw [ReadsParam, p.text_eq]
  obtain ⟨name, ty, optional, rest⟩ := p
  have hoptional : (optional && !rest) = optional := by
    cases optional <;> cases rest <;> simp_all
  dsimp only at *
  rw [hoptional]
  refine .flag rest (.bind (.word hname) (.flag optional (.bind (.expect ": ") (htype.map
    (⟨name, ·, optional, rest⟩ : Sketch → ParamSketch)) fun _ _ => trivial) ?_) ?_) ?_
  · simp
  · cases optional <;> simp [punctuation]
  · intro _ more _
    rw [String.toList_append, List.append_assoc]
    exact hname.not_next (by decide) _

/-- What closes a list of parameters is no parameter. -/
lemma not_next_param {p : Param} (hname : IsWord p.name) {close : String}
    (hclose : close.toList.head?.any (· ∈ punctuation.erase '.') = true) (rest : List Char) :
    ¬close.toList <+: (p.text table).toList ++ rest := by
  obtain ⟨c, hc, hmark⟩ := (Option.any_eq_true ..).mp hclose
  obtain ⟨hdot, hmark⟩ : c ≠ '.' ∧ c ∈ punctuation := by
    rwa [decide_eq_true_eq, List.Nodup.mem_erase_iff (by decide)] at hmark
  rw [p.text_eq]
  cases p.rest with
  | true =>
      rintro ⟨more, heq⟩
      have hhead := congrArg List.head? heq
      rw [List.head?_append, hc] at hhead
      exact hdot (by simpa using hhead)
  | false =>
      rw [if_neg Bool.false_ne_true, String.empty_append, String.toList_append, List.append_assoc]
      exact hname.not_next (by simp [hc, hmark]) _

/-- Parameters are read up to what closes them. -/
lemma closed_params_reads {params : List Param} {close : String} (hn : params.length ≤ n)
    (hclose : ∀ rest, Ends typeEnds (close.toList ++ rest))
    (hdiffer : ∀ rest, ¬", ".toList <+: close.toList ++ rest)
    (hfirst : close.toList.head?.any (· ∈ punctuation.erase '.') = true)
    (hnames : ∀ p ∈ params, IsWord p.name)
    (hreads : ∀ p ∈ params, ReadsParam table (readParam type) p) :
    Reads (Reader.closed ", " close (readParam type) n) (fun _ => True)
      (", ".intercalate (params.map (·.text table)) ++ close) (Param.sketches table params) :=
  Param.sketches_eq table params ▸ .closed hn (by simp [typeEnds]) hclose hdiffer
    (fun p hp => not_next_param (hnames p hp) hfirst) hreads

lemma readSignature_reads {s : Signature} {arrow : String} (htypeParams : s.typeParams.length ≤ n)
    (hparams : s.params.length ≤ n) (hwords : ∀ name ∈ s.typeParams, IsWord name)
    (hnames : ∀ p ∈ s.params, IsWord p.name)
    (hreads : ∀ p ∈ s.params, ReadsParam table (readParam type) p)
    (hresult : ReadsType table type s.result) :
    Reads (readSignature n type arrow) (Ends typeEnds) (s.textWith table arrow)
      (s.sketch table) := by
  rw [s.textWith_eq]
  obtain ⟨typeParams, params, result⟩ := s
  have htypes : Reads (Reader.angled Reader.word n) (fun rest => ¬"<".toList <+: rest)
      (inAngles typeParams) typeParams := by
    have h : Reads (Reader.angled Reader.word n) (fun rest => ¬"<".toList <+: rest)
        (inAngles (typeParams.map id)) (typeParams.map id) :=
      .angled htypeParams (by simp [punctuation]) (by simp [punctuation])
        fun name hname => .word (hwords name hname)
    rwa [List.map_id] at h
  rw [Signature.sketch]
  refine htypes.bind (.bind (.expect "(") (.bind
    (closed_params_reads hparams (by simp [typeEnds]) (by simp) (by decide) hnames hreads)
    (.bind (.expect arrow) (hresult.map
      (⟨typeParams, Param.sketches table params, ·⟩ : Sketch → SignatureSketch)) ?_) ?_) ?_) ?_
  · exact fun _ _ => trivial
  · exact fun _ _ => trivial
  · exact fun _ _ => trivial
  · simp

/-! ## Members -/

/-- What may follow the name of a member. -/
def nameEnds : List Char := ['?', ':', '<', '(']

lemma ends_signature (s : Signature) (arrow : String) (rest : List Char) :
    Ends ['<', '('] ((s.textWith table arrow).toList ++ rest) := by
  rw [s.textWith_eq]
  cases s.typeParams <;> simp [inAngles]

/-- What follows the name of a method. -/
lemma ends_method (s : Signature) (optional : Bool) (rest : List Char) :
    Ends nameEnds (((if optional then "?" else "") ++ s.textWith table ": ").toList ++ rest) := by
  cases optional with
  | true => simp [nameEnds]
  | false =>
      rw [if_neg Bool.false_ne_true, String.empty_append]
      exact (ends_signature s ": " rest).mono (by decide)

/-- The name of a member is not taken for a keyword. -/
lemma not_next_name {keyword characters name tail : String} (hkeyword : IsWord keyword)
    (hcharacters : characters = keyword ++ " ") (hname : IsWord name) {rest : List Char}
    (htail : Ends nameEnds (tail.toList ++ rest)) :
    ¬characters.toList <+: (name ++ tail).toList ++ rest := by
  rw [String.toList_append, List.append_assoc]
  exact hkeyword.not_next_keyword hcharacters hname.plain htail (by decide) (by decide)

/-- A name is not taken for anything else. -/
lemma readKind_named {name tail : String} {fits : List Char → Prop}
    {member : Option String × MemberKindSketch} (hname : IsWord name)
    (h : Reads (readNamed n type) fits (name ++ tail) member)
    (htail : ∀ rest, fits rest → Ends nameEnds (tail.toList ++ rest)) :
    Reads (readKind n type) fits (name ++ tail) member := by
  have hreadonly : IsWord "readonly" := by decide
  have hnew : IsWord "new" := by decide
  refine .passed (.passed (.passed (.no h fun rest _ => ?_) fun rest hrest => ?_)
    fun rest _ => ?_) fun rest hrest => ?_
  · obtain ⟨c, hplain, hhead⟩ := hname.head?_append (tail.toList ++ rest)
    rw [String.toList_append, List.append_assoc, opensSignature, hhead]
    refine decide_eq_false fun hc => hplain ?_
    simp only [List.mem_cons, Option.some.injEq, List.not_mem_nil, or_false] at hc
    rcases hc with rfl | rfl <;> decide
  · exact not_next_name hreadonly (by decide) hname (htail rest hrest)
  · rw [String.toList_append, List.append_assoc]
    exact hname.not_next (by decide) _
  · exact not_next_name hnew (by decide) hname (htail rest hrest)

lemma readKind_property {name : String} {ty : Ty} {optional readonly : Bool} (hname : IsWord name)
    (htype : ReadsType table type ty) :
    Reads (readKind n type) (Ends typeEnds)
      ((MemberKind.property ty optional readonly).text table name)
      (some name, .property (ty.sketch table) optional readonly) := by
  cases readonly with
  | true =>
      have htext : (MemberKind.property ty optional true).text table name =
          "readonly " ++ (name ++ ((if optional then "?" else "") ++
            (": " ++ ty.textAs table false))) := by
        simp only [MemberKind.text, if_true, String.append_assoc]
      rw [htext]
      have hvalue := htype.map fun t => (some name, MemberKindSketch.property t optional true)
      refine .passed (.passed (.found (.bind (.word hname) (.flag optional (.bind (.expect ": ")
        hvalue ?_) ?_) ?_)) ?_) ?_
      · exact fun _ _ => trivial
      · simp
      · cases optional <;> simp [punctuation]
      · simp
      · simp
  | false =>
      have htext : (MemberKind.property ty optional false).text table name =
          name ++ ((if optional then "?" else "") ++ (": " ++ ty.textAs table false)) := by
        simp only [MemberKind.text, Bool.false_eq_true, if_false, String.empty_append,
          String.append_assoc]
      rw [htext]
      refine readKind_named hname (.bind (.word hname) (.flag optional (.found
        (htype.map (fun t => (some name, MemberKindSketch.property t optional false)))) ?_) ?_) ?_
      · simp
      · cases optional <;> simp [punctuation]
      · cases optional <;> simp [nameEnds]

section

variable {s : Signature}
  (hs : Reads (readSignature n type ": ") (Ends typeEnds) (s.textWith table ": ") (s.sketch table))
include hs

lemma readKind_method {name : String} {optional : Bool} (hname : IsWord name) :
    Reads (readKind n type) (Ends typeEnds) ((MemberKind.method s optional).text table name)
      (some name, .method (s.sketch table) optional) := by
  have htext : (MemberKind.method s optional).text table name =
      name ++ ((if optional then "?" else "") ++ s.textWith table ": ") := by
    simp only [MemberKind.text, String.append_assoc]
  rw [htext]
  refine readKind_named hname (.bind (.word hname) (.flag optional (.passed
    (hs.map fun s => (some name, MemberKindSketch.method s optional)) ?_) ?_) ?_)
      fun rest _ => ends_method s optional rest
  · exact fun rest _ => (ends_signature s ": " rest).not_next (by decide)
  · exact fun _ rest _ => (ends_signature s ": " rest).not_next (by decide)
  · exact fun rest _ => (ends_method s optional rest).mono (by decide)

lemma readKind_call : Reads (readKind n type) (Ends typeEnds)
    ((MemberKind.call s).text table "") (none, .call (s.sketch table)) := by
  have hfirst : ∀ rest, Ends ['<', '('] ((s.textWith table ": ").toList ++ rest) :=
    ends_signature s ": "
  refine .passed (.passed (.passed (.yes (hs.map fun s => (none, MemberKindSketch.call s))
    fun rest _ => ?_) ?_) ?_) ?_
  · rw [MemberKind.text, s.textWith_eq]
    cases s.typeParams <;> simp [inAngles, opensSignature]
  · exact fun rest _ => (hfirst rest).not_next (by decide)
  · exact fun rest _ => (hfirst rest).not_next (by decide)
  · exact fun rest _ => (hfirst rest).not_next (by decide)

lemma readKind_construct : Reads (readKind n type) (Ends typeEnds)
    ((MemberKind.construct s).text table "") (none, .construct (s.sketch table)) :=
  .found (hs.map fun s => (none, MemberKindSketch.construct s))

end

lemma readKind_index {params : List Param} {result : Ty} (hn : params.length ≤ n)
    (hnames : ∀ p ∈ params, IsWord p.name)
    (hreads : ∀ p ∈ params, ReadsParam table (readParam type) p)
    (hresult : ReadsType table type result) :
    Reads (readKind n type) (Ends typeEnds)
      ((MemberKind.index ⟨[], params, result⟩).text table "")
      (none, .index ⟨[], Param.sketches table params, result.sketch table⟩) := by
  have htext : (MemberKind.index ⟨[], params, result⟩).text table "" =
      "[" ++ ((", ".intercalate (params.map (·.text table)) ++ "]: ") ++
        result.textAs table false) := by
    simp only [MemberKind.text, Param.texts_eq, String.append_assoc]
  rw [htext]
  refine .passed (.found (.bind (closed_params_reads hn (by simp [typeEnds]) (by simp) (by decide)
    hnames hreads) (hresult.map fun t =>
      (none, MemberKindSketch.index ⟨[], Param.sketches table params, t⟩)) ?_)) ?_
  · exact fun _ _ => trivial
  · simp

/-- A member is not taken for a static one. -/
lemma not_next_static {kind : MemberKind} {name : Option String} (hname : kind.NamedAs name)
    (hkind : kind.Legible table) (rest : List Char) :
    ¬"static ".toList <+: (kind.text table (name.getD "")).toList ++ rest := by
  have hstatic : IsWord "static" := by decide
  cases kind with
  | property ty optional readonly =>
      obtain ⟨word, rfl, hword⟩ := hname
      simp only [MemberKind.text, Option.getD_some]
      cases readonly with
      | true => simp
      | false =>
          rw [if_neg Bool.false_ne_true, String.empty_append, String.append_assoc,
            String.append_assoc]
          exact not_next_name hstatic (by decide) hword (by cases optional <;> simp [nameEnds])
  | method s optional =>
      obtain ⟨word, rfl, hword⟩ := hname
      simp only [MemberKind.text, Option.getD_some, String.append_assoc]
      exact not_next_name hstatic (by decide) hword (ends_method s optional rest)
  | call s => exact (ends_signature s ": " rest).not_next (by decide)
  | construct s => simp [MemberKind.text]
  | index s =>
      obtain ⟨typeParams, params, result⟩ := s
      simp [MemberKind.text]
  | nested symbol => exact hkind.elim

lemma readMember_reads {name : Option String} {kind : MemberKind} {isStatic : Bool} {span : Span}
    (hname : kind.NamedAs name) (hlegible : kind.Legible table)
    (hkind : Reads (readKind n type) (Ends typeEnds) (kind.text table (name.getD ""))
      (name, kind.sketch table)) :
    Reads (readMember n type) (Ends typeEnds) ((⟨name, kind, isStatic, span⟩ : Member).text table)
      ((⟨name, kind, isStatic, span⟩ : Member).sketch table) :=
  .flag isStatic (hkind.map fun member => (⟨member.1, member.2, isStatic⟩ : MemberSketch))
    fun _ rest _ => not_next_static hname hlegible rest

end Sketch

end Interop
