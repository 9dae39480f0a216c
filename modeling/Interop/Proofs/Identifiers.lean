import Interop.Emission.Signature
import Interop.Proofs.References

/-!
# Spellings of identifiers

Whatever a name is in the source, what is written for it holds characters of identifiers alone.
Different names can be written alike then, and this file says which.

What is written is also legal in its role: it has the form of an identifier and is no word that is
taken.  Words that are taken consist of letters, so a name with any other character in it is taken in
no role.  Every name that the program makes up or changes has such a character: the escape mark, the
`_` in place of what no identifier holds, or the number of a name.

* `Identifier.Collide` — names that are written alike; `Identifier.sanitize_eq_iff` says so.
* `Identifier.EscapesAlike` — names that are escaped to one spelling; `Identifier.escape_eq_iff` says
  so.
* `Identifier.validate_escape_getD` — what a name is spelled as is legal.
* `Library.Makes` — how a flat name is made; `Library.Spells.usable` — every flat name is legal in the
  role of its path.
* `libraryName_usable_iff` — names of libraries are only made to have the form of identifiers.
* **`names_legal`** — names of paths and of merged parameters are legal.
-/

namespace Interop

namespace Identifier

/-- A name in which every character that no identifier holds is replaced. -/
def masked (name : String) : List Char :=
  name.toList.map fun c => if isPart c then c else '_'

/-- Whether the escape mark is put before a text: it is empty or begins with a digit. -/
def NeedsMark (cs : List Char) : Prop :=
  cs.isEmpty || startsWithDigit cs

/-- **Names that have one spelling**: they differ in nothing but characters that no identifier holds,
or one of them has the escape mark in front that the other one gets. -/
def Collide (a b : String) : Prop :=
  masked a = masked b ∨ (NeedsMark (masked a) ∧ masked b = escapeMark :: masked a) ∨
    (NeedsMark (masked b) ∧ masked a = escapeMark :: masked b)

lemma sanitize_of_needsMark {name : String} (h : NeedsMark (masked name)) :
    (sanitize name).toList = escapeMark :: masked name := by
  simp only [sanitize, String.toList_ofList]
  exact if_pos h

lemma sanitize_of_not_needsMark {name : String} (h : ¬ NeedsMark (masked name)) :
    (sanitize name).toList = masked name := by
  simp only [sanitize, String.toList_ofList]
  exact if_neg h

/-- What has the mark in front needs no other. -/
lemma not_needsMark_marked (cs : List Char) : ¬ NeedsMark (escapeMark :: cs) := by
  simp [NeedsMark, startsWithDigit, escapeMark]

/-- **When two names have one spelling.** -/
theorem sanitize_eq_iff {a b : String} : sanitize a = sanitize b ↔ Collide a b := by
  rw [← String.toList_inj, Collide]
  by_cases ha : NeedsMark (masked a) <;> by_cases hb : NeedsMark (masked b)
  · rw [sanitize_of_needsMark ha, sanitize_of_needsMark hb, List.cons.injEq]
    have hne : ∀ {cs ds : List Char}, NeedsMark ds → ds ≠ escapeMark :: cs := by
      rintro cs - h rfl
      exact not_needsMark_marked cs h
    simp [hne ha, hne hb]
  · rw [sanitize_of_needsMark ha, sanitize_of_not_needsMark hb]
    have hne : masked a ≠ masked b := fun h => hb (h ▸ ha)
    simp [ha, hb, hne, eq_comm]
  · rw [sanitize_of_not_needsMark ha, sanitize_of_needsMark hb]
    have hne : masked a ≠ masked b := fun h => ha (h ▸ hb)
    simp [ha, hb, hne]
  · rw [sanitize_of_not_needsMark ha, sanitize_of_not_needsMark hb]
    simp [ha, hb]

/-- A spelling holds nothing but characters of identifiers. -/
lemma isPart_of_mem_sanitize {name : String} {c : Char} (h : c ∈ (sanitize name).toList) :
    isPart c = true := by
  have hmasked : ∀ c ∈ masked name, isPart c = true := by
    intro c hc
    obtain ⟨d, -, rfl⟩ := List.mem_map.mp hc
    split_ifs with hd
    · exact hd
    · decide
  by_cases hmark : NeedsMark (masked name)
  · rw [sanitize_of_needsMark hmark] at h
    rcases List.mem_cons.mp h with rfl | h
    · decide
    · exact hmasked c h
  · rw [sanitize_of_not_needsMark hmark] at h
    exact hmasked c h

/-! ## What is legal -/

/-- A name is legal if it has the form of an identifier and is not taken. -/
lemma validate_eq_usable_iff {name : String} {role : NameRole} :
    validate name role = .usable ↔ isIdentifier name = true ∧ isTaken name role = false := by
  unfold validate isIdentifier
  cases name.toList.isEmpty <;> cases name.toList.all isPart <;>
    cases startsWithDigit name.toList <;> cases isTaken name role <;> simp

/-- Taken words consist of letters. -/
lemma isAlpha_of_isTaken {name : String} {role : NameRole} (h : isTaken name role = true) {c : Char}
    (hc : c ∈ name.toList) : c.isAlpha = true := by
  have hwords : ∀ word ∈ reservedWords ++ builtInWords, word.toList.all Char.isAlpha = true := by
    decide +kernel
  have hmem : name ∈ reservedWords ++ builtInWords := by
    simp only [isTaken, Bool.or_eq_true, Bool.and_eq_true, List.contains_iff_mem] at h
    exact List.mem_append.mpr (h.imp id And.right)
  exact List.all_eq_true.mp (hwords name hmem) c hc

/-- An identifier with a character that is no letter is legal in every role. -/
lemma usable_of_not_isAlpha {name : String} (h : isIdentifier name = true) {c : Char}
    (hc : c ∈ name.toList) (hletter : c.isAlpha = false) (role : NameRole) :
    validate name role = .usable := by
  refine validate_eq_usable_iff.mpr ⟨h, Bool.eq_false_iff.mpr fun htaken => ?_⟩
  rw [isAlpha_of_isTaken htaken hc] at hletter
  cases hletter

/-! ## Escaped and sanitized names -/

lemma isIdentifier_iff {name : String} : isIdentifier name = true ↔
    name ≠ "" ∧ (∀ c ∈ name.toList, isPart c = true) ∧ startsWithDigit name.toList = false := by
  simp [isIdentifier, and_assoc]

/-- The escape mark makes an identifier of whatever has its characters. -/
lemma isIdentifier_escaped {name : String} (h : ∀ c ∈ name.toList, isPart c = true) :
    isIdentifier (escaped name) = true := by
  refine isIdentifier_iff.mpr ⟨?_, ?_, ?_⟩
  · simp [escaped, ← String.toList_inj]
  · simpa [escaped] using ⟨by decide, h⟩
  · simp [escaped, startsWithDigit, escapeMark]

lemma usable_of_escaped {name spelling : String} {role : NameRole}
    (h : validate name role = .escaped spelling) (other : NameRole) :
    validate spelling other = .usable := by
  unfold validate at h
  split_ifs at h with hunusable htaken
  have hparts : name ≠ "" ∧ ∀ c ∈ name.toList, isPart c = true := by simpa using hunusable
  obtain rfl := Validity.escaped.inj h
  exact usable_of_not_isAlpha (isIdentifier_escaped hparts.2) (c := escapeMark) (by simp [escaped])
    (by decide) other

/-- A spelling is the name itself or its escaped form. -/
lemma escape_eq_some {name spelling : String} {role : NameRole}
    (h : escape name role = some spelling) :
    (validate name role = .usable ∧ name = spelling) ∨ validate name role = .escaped spelling := by
  unfold escape at h
  cases hvalid : validate name role with
  | usable => exact .inl ⟨rfl, by simpa [hvalid, Validity.spelling?] using h⟩
  | escaped other => exact .inr (by simpa [hvalid, Validity.spelling?] using h)
  | unusable => simp [hvalid, Validity.spelling?] at h

lemma escape_of_usable {name : String} {role : NameRole} (h : validate name role = .usable) :
    escape name role = some name := by
  rw [escape, h]
  rfl

lemma escape_eq_none {name : String} {role : NameRole} (h : escape name role = none) :
    validate name role = .unusable := by
  unfold escape at h
  cases hvalid : validate name role <;> simp [hvalid, Validity.spelling?] at h ⊢

/-- The spelling of a name is legal. -/
lemma usable_of_escape {name spelling : String} {role : NameRole}
    (h : escape name role = some spelling) : validate spelling role = .usable := by
  rcases escape_eq_some h with ⟨hvalid, rfl⟩ | hvalid
  · exact hvalid
  · exact usable_of_escaped hvalid role

/-- **Names that escaping writes alike**: they are the same, or one of them is what the other one is
escaped to. -/
def EscapesAlike (role : NameRole) (a b : String) : Prop :=
  a = b ∨ validate a role = .escaped b ∨ validate b role = .escaped a

lemma validate_eq_escaped_iff {name spelling : String} {role : NameRole} :
    validate name role = .escaped spelling ↔ (name ≠ "" ∧ ∀ c ∈ name.toList, isPart c = true) ∧
      (startsWithDigit name.toList = true ∨ isTaken name role = true) ∧
        spelling = escaped name := by
  have hparts : ¬ (name.toList.isEmpty || !name.toList.all isPart) = true ↔
      name ≠ "" ∧ ∀ c ∈ name.toList, isPart c = true := by simp
  rw [← hparts, ← Bool.or_eq_true]
  unfold validate
  split_ifs with hunusable htaken
  · simp [hunusable]
  · simp [hunusable, htaken, eq_comm (a := spelling)]
  · simp [htaken]

lemma escaped_injective : Function.Injective escaped := by
  intro a b h
  have hchars := congrArg String.toList h
  simp only [escaped, String.toList_ofList, List.cons.injEq, true_and] at hchars
  exact String.toList_inj.mp hchars

/-- **When two names have one spelling**, if both have one. -/
lemma escape_eq_iff {a b x y : String} {role : NameRole} (ha : escape a role = some x)
    (hb : escape b role = some y) : x = y ↔ EscapesAlike role a b := by
  rcases escape_eq_some ha with ⟨hvalid, rfl⟩ | hescaped <;>
    rcases escape_eq_some hb with ⟨hvalid', rfl⟩ | hescaped'
  · simp [EscapesAlike, hvalid, hvalid']
  · have hne : a ≠ b := fun h => by simp [h, hescaped'] at hvalid
    simp [EscapesAlike, hvalid, hescaped', hne, eq_comm (a := a)]
  · have hne : a ≠ b := fun h => by simp [← h, hescaped] at hvalid'
    simp [EscapesAlike, hvalid', hescaped, hne]
  · -- neither is what the other one is escaped to, since that is legal
    have hne : x ≠ b := fun h => by
      have husable := usable_of_escaped hescaped role
      simp [h, hescaped'] at husable
    have hne' : y ≠ a := fun h => by
      have husable := usable_of_escaped hescaped' role
      simp [h, hescaped] at husable
    simp only [EscapesAlike, hescaped, hescaped', Validity.escaped.injEq, hne, hne', or_false]
    rw [(validate_eq_escaped_iff.mp hescaped).2.2, (validate_eq_escaped_iff.mp hescaped').2.2]
    exact escaped_injective.eq_iff

/-- Names that are escaped alike have one spelling, if one of them has any. -/
lemma EscapesAlike.exists_spelling {a b : String} {role : NameRole} (h : EscapesAlike role a b)
    (ha : validate a role ≠ .unusable) : ∃ x, escape a role = some x ∧ escape b role = some x := by
  have hescape : ∀ {name spelling : String}, validate name role = .escaped spelling →
      escape name role = some spelling ∧ escape spelling role = some spelling := fun hname =>
    ⟨by rw [escape, hname]; rfl, escape_of_usable (usable_of_escaped hname role)⟩
  rcases h with rfl | h | h
  · obtain ⟨x, hx⟩ := Option.ne_none_iff_exists'.mp (ha ∘ escape_eq_none)
    exact ⟨x, hx, hx⟩
  · exact ⟨b, hescape h⟩
  · exact ⟨a, (hescape h).2, (hescape h).1⟩

/-- A sanitized name has the form of an identifier. -/
lemma isIdentifier_sanitize (name : String) : isIdentifier (sanitize name) = true := by
  refine isIdentifier_iff.mpr ⟨?_, fun c hc => isPart_of_mem_sanitize hc, ?_⟩
  · rw [Ne, ← String.toList_inj]
    by_cases hmark : NeedsMark (masked name)
    · simp [sanitize_of_needsMark hmark]
    · rw [sanitize_of_not_needsMark hmark]
      intro hempty
      exact hmark (by simp [NeedsMark, hempty])
  · by_cases hmark : NeedsMark (masked name)
    · simp [sanitize_of_needsMark hmark, startsWithDigit, escapeMark]
    · rw [sanitize_of_not_needsMark hmark]
      exact Bool.eq_false_iff.mpr fun hstart => hmark (by simp [NeedsMark, hstart])

/-- What has the form of an identifier is not changed. -/
lemma sanitize_of_isIdentifier {name : String} (h : isIdentifier name = true) :
    sanitize name = name := by
  obtain ⟨hne, hparts, hstart⟩ := isIdentifier_iff.mp h
  have hmasked : masked name = name.toList := by
    have hkeep : ∀ c ∈ name.toList, (if isPart c then c else '_') = c :=
      fun c hc => if_pos (hparts c hc)
    rw [masked, List.map_congr_left hkeep, List.map_id']
  have hmark : ¬ NeedsMark (masked name) := by
    simp [NeedsMark, hmasked, hstart, hne]
  exact String.toList_inj.mp ((sanitize_of_not_needsMark hmark).trans hmasked)

/-- What cannot be spelled is sanitized to something with a character that is no letter. -/
lemma exists_mem_sanitize {name : String} {role : NameRole} (h : validate name role = .unusable) :
    ∃ c ∈ (sanitize name).toList, c.isAlpha = false := by
  have hparts : name = "" ∨ ∃ c ∈ name.toList, isPart c = false := by
    unfold validate at h
    split_ifs at h with hunusable
    simpa using hunusable
  rcases hparts with rfl | ⟨c, hc, hpart⟩
  · exact ⟨'$', by decide, by decide⟩
  · have hmasked : '_' ∈ masked name := List.mem_map.mpr ⟨c, hc, by simp [hpart]⟩
    refine ⟨'_', ?_, by decide⟩
    by_cases hmark : NeedsMark (masked name)
    · rw [sanitize_of_needsMark hmark]
      exact List.mem_cons_of_mem _ hmasked
    · rwa [sanitize_of_not_needsMark hmark]

/-- What cannot be spelled is sanitized to something legal. -/
lemma usable_sanitize {name : String} {role : NameRole} (h : validate name role = .unusable)
    (other : NameRole) : validate (sanitize name) other = .usable := by
  obtain ⟨c, hc, hletter⟩ := exists_mem_sanitize h
  exact usable_of_not_isAlpha (isIdentifier_sanitize name) hc hletter other

/-- **What a name is spelled as, one way or the other, is legal.** -/
lemma validate_escape_getD (name : String) (role : NameRole) :
    validate ((escape name role).getD (sanitize name)) role = .usable := by
  cases hescape : escape name role with
  | some spelling => exact usable_of_escape hescape
  | none => exact usable_sanitize (escape_eq_none hescape) role

lemma isAlpha_of_isDigit {c : Char} (h : c.isDigit = true) : c.isAlpha = false := by
  have hdigit : 48 ≤ c.toNat ∧ c.toNat ≤ 57 := by
    simp only [Char.isDigit, Bool.and_eq_true, decide_eq_true_eq, ge_iff_le,
      UInt32.le_iff_toNat_le] at h
    exact h
  refine Bool.eq_false_iff.mpr fun halpha => ?_
  have hletter : (65 ≤ c.toNat ∧ c.toNat ≤ 90) ∨ (97 ≤ c.toNat ∧ c.toNat ≤ 122) := by
    simp only [Char.isAlpha, Char.isUpper, Char.isLower, Bool.or_eq_true, Bool.and_eq_true,
      decide_eq_true_eq, ge_iff_le, UInt32.le_iff_toNat_le] at halpha
    exact halpha
  omega

/-- A legal name stays legal with a number after it. -/
lemma usable_append_number {name : String} {role : NameRole} (h : validate name role = .usable)
    (n : Nat) : validate (name ++ toString n) role = .usable := by
  obtain ⟨hne, hparts, hstart⟩ := isIdentifier_iff.mp (validate_eq_usable_iff.mp h).1
  have hdigits : ∀ c ∈ (toString n).toList, c.isDigit = true := by
    intro c hc
    have hmem : c ∈ Nat.toDigits 10 n := by simpa [toString, Nat.repr] using hc
    exact Nat.isDigit_of_mem_toDigits (by decide) (by decide) hmem
  obtain ⟨d, hd⟩ : ∃ d, d ∈ (toString n).toList := by
    refine List.exists_mem_of_ne_nil _ ?_
    simp [toString, Nat.repr]
  have hletter := isAlpha_of_isDigit (hdigits d hd)
  refine usable_of_not_isAlpha (isIdentifier_iff.mpr ⟨?_, ?_, ?_⟩) (c := d) ?_ hletter role
  · simp [hne]
  · rw [String.toList_append]
    refine List.forall_mem_append.mpr ⟨hparts, fun c hc => ?_⟩
    simp [isPart, Char.isAlphanum, hdigits c hc]
  · rw [String.toList_append]
    cases hchars : name.toList with
    | nil => exact absurd (String.toList_inj.mp (hchars.trans rfl)) hne
    | cons c cs => simpa [startsWithDigit, hchars] using hstart
  · rw [String.toList_append]
    exact List.mem_append_right _ hd

/-- A legal name is made of characters of identifiers. -/
lemma isPart_of_usable {name : String} {role : NameRole} (h : validate name role = .usable) {c : Char}
    (hc : c ∈ name.toList) : isPart c = true :=
  (isIdentifier_iff.mp (validate_eq_usable_iff.mp h).1).2.1 c hc

end Identifier

/-! ## Flat names -/

namespace Library

/-- **How a flat name is made of a path**: from a suffix of it, as it stands or escaped; from its
leaf, sanitized; or with a number after it. -/
inductive Makes (path : DeclPath) : String → Prop
  | plain {suffix : List String} : suffix ∈ suffixes path.segments →
      Identifier.validate ("_".intercalate suffix) path.role = .usable →
      Makes path ("_".intercalate suffix)
  | escaped {suffix : List String} {spelling : String} : suffix ∈ suffixes path.segments →
      Identifier.validate ("_".intercalate suffix) path.role = .escaped spelling →
      Makes path spelling
  | sanitized : Identifier.validate path.leaf path.role = .unusable →
      Makes path (Identifier.sanitize path.leaf)
  | numbered (n : Nat) : 2 ≤ n → Makes path (fallback path ++ toString n)

variable {path : DeclPath} {name : String}

/-- **However it is made, a flat name is legal in the role of its path.** -/
lemma Makes.usable (h : Makes path name) : Identifier.validate name path.role = .usable := by
  cases h with
  | plain _ hvalid => exact hvalid
  | escaped _ hvalid => exact Identifier.usable_of_escaped hvalid path.role
  | sanitized hvalid => exact Identifier.usable_sanitize hvalid path.role
  | numbered n _ =>
      exact Identifier.usable_append_number (Identifier.validate_escape_getD path.leaf path.role) n

/-- The spelling of a suffix is made of it. -/
lemma makes_of_escape {suffix : List String} (hsuffix : suffix ∈ suffixes path.segments)
    (h : Identifier.escape ("_".intercalate suffix) path.role = some name) : Makes path name := by
  rcases Identifier.escape_eq_some h with ⟨hvalid, rfl⟩ | hvalid
  · exact .plain hsuffix hvalid
  · exact .escaped hsuffix hvalid

/-- The last segment alone is the shortest suffix. -/
lemma leaf_mem_suffixes (h : path.segments ≠ []) : [path.leaf] ∈ suffixes path.segments := by
  obtain ⟨scope, leaf, hsegments⟩ := (List.eq_nil_or_concat' path.segments).resolve_left h
  refine List.mem_map.mpr ⟨0, by simp [hsegments], ?_⟩
  simp [DeclPath.leaf, hsegments]

/-- A leaf that has a spelling is a suffix, and any other is sanitized. -/
lemma makes_fallback (path : DeclPath) : Makes path (fallback path) := by
  unfold fallback
  cases hescape : Identifier.escape path.leaf path.role with
  | some spelling =>
      have hsegments : path.segments ≠ [] := by
        intro hempty
        have hleaf : path.leaf = "" := by simp [DeclPath.leaf, hempty]
        rw [hleaf] at hescape
        cases hescape
      exact makes_of_escape (leaf_mem_suffixes hsegments) (by simpa using hescape)
  | none => exact .sanitized (Identifier.escape_eq_none hescape)

lemma Spells.makes (h : Spells path name) : Makes path name := by
  rcases h with hcandidate | rfl | ⟨k, hk, rfl⟩
  · obtain ⟨suffix, hsuffix, hescape⟩ := List.mem_filterMap.mp hcandidate
    exact makes_of_escape hsuffix hescape
  · exact makes_fallback path
  · exact .numbered k hk

/-- **A flat name is legal in the role of its path.** -/
lemma Spells.usable (h : Spells path name) : Identifier.validate name path.role = .usable :=
  h.makes.usable

end Library

/-! ## Names of libraries and parameters -/

/-- **Names of libraries** have the form of identifiers; they are legal unless they are reserved. -/
lemma libraryName_usable_iff (name : String) :
    Identifier.isIdentifier (libraryName name) = true ∧
      (Identifier.validate (libraryName name) .value = .usable ↔
        libraryName name ∉ Identifier.reservedWords) := by
  have hform := Identifier.isIdentifier_sanitize name
  refine ⟨hform, Identifier.validate_eq_usable_iff.trans ?_⟩
  simp [libraryName, hform, Identifier.isTaken]

lemma SignatureText.paramName_usable (index : Nat) (p : Param) :
    Identifier.validate (paramName index p) .value = .usable := by
  unfold paramName
  cases hescape : Identifier.escape p.name .value with
  | some spelling => exact Identifier.usable_of_escape hescape
  | none => exact Identifier.usable_append_number (by decide) index

/-- **Names that are made up are legal.**  The name that a path is given when it is first asked for is
made in one of four ways and legal in the role of the path, whatever is in use and whatever the
segments are.  The name of a merged parameter is a legal name of a value, whichever names were
merged.  Both rest on this: a spelling is legal in its role, and sanitizing gives the form of an
identifier, once and for all. -/
theorem names_legal :
    (∀ (registry : Registry) (path : DeclPath) (library : Library), registry.find? path = none →
      Library.Makes path (registry.allocate path library).1 ∧
        Identifier.validate (registry.allocate path library).1 path.role = .usable) ∧
      (∀ slot : Slot, Identifier.validate slot.name .value = .usable) ∧
      (∀ name role spelling, Identifier.escape name role = some spelling →
        Identifier.validate spelling role = .usable) ∧
      ∀ name, Identifier.isIdentifier (Identifier.sanitize name) = true ∧
        Identifier.sanitize (Identifier.sanitize name) = Identifier.sanitize name := by
  refine ⟨fun registry path library hnew => ?_, fun slot => ?_, fun name role spelling hescape => ?_,
    fun name => ⟨Identifier.isIdentifier_sanitize name, ?_⟩⟩
  · rw [Registry.allocate_of_new hnew]
    have hmakes := (library.firstFree_spells path).makes
    exact ⟨hmakes, hmakes.usable⟩
  · exact Identifier.validate_escape_getD ("_".intercalate slot.names) .value
  · exact Identifier.usable_of_escape hescape
  · exact Identifier.sanitize_of_isIdentifier (Identifier.isIdentifier_sanitize name)

/-- A leaf that is a word of the target, one with a character that no identifier holds, and the same
leaf once more. -/
theorem names_legal_allocated :
    let registry : Registry := {}
    let word : DeclPath := ⟨["m", "get"], .type⟩
    let accented : DeclPath := ⟨["n", "café"], .value⟩
    let fresh : Library := ⟨0, "test", []⟩
    let once : Library := ⟨0, "test", ["caf_"]⟩
    (registry.allocate word fresh).1 = "$get" ∧
      Identifier.validate (registry.allocate word fresh).1 .type = .usable ∧
      (registry.allocate accented fresh).1 = "caf_" ∧
      Identifier.validate (registry.allocate accented fresh).1 .value = .usable ∧
      (registry.allocate accented once).1 = "caf_2" ∧
      Identifier.validate (registry.allocate accented once).1 .value = .usable :=
  ⟨by decide +kernel, (names_legal.1 _ _ _ rfl).2, by decide +kernel, (names_legal.1 _ _ _ rfl).2,
    by decide +kernel, (names_legal.1 _ _ _ rfl).2⟩

end Interop
