import ApiReference.Proofs.Declaration.Sections

/-!
# Parameter tags

A parameter tag names a parameter, alone or behind dots, in brackets or with a default value, after
its type and before its text. Name and text come back as they were written, exactly if there is no
blank in the default value. Main statement: `parseParam_write`.
-/

namespace ApiReference.Declaration.Documentation
open ApiReference.Text (isBlank trim trimEnd trimStart trimStartOf)

theorem remark_trimEnd (t : Text) : remark (trimEnd t) = remark t :=
  congrArg (fun u => trim (trimStartOf (· == '-') u)) (Text.trimOf_trimEndOf isBlank t)

/-- Behind a bracket nothing is taken off but blanks at the end. -/
theorem remark_bracket {tail : Text} (trimmed : trimEnd tail = tail) (t : Text) :
    remark (t ++ ']' :: tail) =
      trimStart (trimStartOf (· == '-') (trimStart t)) ++ ']' :: tail := by
  have trim_bracket (u : Text) : trim (u ++ ']' :: tail) = trimStart u ++ ']' :: tail := by
    rw [trim, Text.trimOf_append_cons (by decide), ← trimEnd, trimmed]
    rfl
  rw [remark, trim_bracket, Text.trimStartOf_append_cons (by decide), trim_bracket]

structure ParameterName where
  text : Text
  nonempty : text ≠ []
  plain : ∀ c ∈ text, isBlank c = false ∧ c ∉ ['[', ']', '{', '}', '=']
  dotless : text.head? ≠ some '.'

/-- What a tag says about a parameter. -/
structure ParameterText where
  text : Text
  trimmed : trim text = text
  hyphenless : text.head? ≠ some '-'

/-- The ways to write a name. -/
inductive NameForm where
  | plain
  | rest
  | optional
  | defaulted (value : Text)

/-- A parameter tag as it is written, with or without a type and a hyphen. -/
structure ParameterTag where
  type : Option Text
  balanced : ∀ t ∈ type, Balanced t
  form : NameForm
  name : ParameterName
  hyphen : Bool
  text : ParameterText

def NameForm.value : NameForm → Text
  | .defaulted value => value
  | _ => []

def NameForm.write (name : Text) : NameForm → Text
  | .plain => name
  | .rest => "...".toList ++ name
  | .optional => '[' :: (name ++ [']'])
  | .defaulted value => '[' :: (name ++ '=' :: (value ++ [']']))

namespace ParameterTag
variable (tag : ParameterTag)

def writtenName : Text := tag.form.write tag.name.text

/-- The text with what separates it from the name. -/
def writtenText : Text := (if tag.hyphen then " - ".toList else " ".toList) ++ tag.text.text

def write : Text :=
  let named := tag.writtenName ++ tag.writtenText
  match tag.type with
  | some type => '{' :: (type ++ '}' :: ' ' :: named)
  | none => named

end ParameterTag

namespace ParameterName
variable (name : ParameterName)

theorem not_mem {c : Char} (special : c ∈ ['[', ']', '{', '}', '=']) : c ∉ name.text :=
  fun member => (name.plain c member).2 special

theorem exists_start : ∃ c rest, name.text = c :: rest ∧ isBlank c = false ∧
    c ∉ ['[', ']', '{', '}', '='] := by
  obtain ⟨c, rest, start⟩ := List.exists_cons_of_ne_nil name.nonempty
  exact ⟨c, rest, start, name.plain c (start ▸ List.mem_cons_self)⟩

/-- Brackets are trimmed up to the dots or the name. -/
theorem trimStartOf_brackets {brackets dots : Text} (close : Text) (opening : ∀ c ∈ brackets, c = '[')
    (dotted : dots = [] ∨ dots = "...".toList) :
    trimStartOf (· == '[') (brackets ++ (dots ++ (name.text ++ close))) =
      dots ++ name.text ++ close := by
  have start : (dots ++ (name.text ++ close)).head? ≠ some '[' := by
    obtain ⟨c, rest, start, -, plain⟩ := name.exists_start
    rcases dotted with rfl | rfl
    · rw [start]
      intro same
      obtain rfl : c = '[' := Option.some.inj same
      exact plain List.mem_cons_self
    · exact nofun
  rw [trimStartOf, List.dropWhile_append_of_pos fun c member => beq_iff_eq.2 (opening c member),
    List.append_assoc]
  refine List.dropWhile_eq_self_iff.2 fun filled bracket => start ?_
  rw [List.head?_eq_getElem?, List.getElem?_eq_getElem filled, beq_iff_eq.1 bracket]

/-- Neither the dots nor the name have a character that ends a name. -/
theorem goesOn_of_mem {dots : Text} (dotted : dots = [] ∨ dots = "...".toList) {c : Char}
    (member : c ∈ dots ++ name.text) : (c != '=' && c != ']') = true := by
  rw [Bool.and_eq_true, bne_iff_ne, bne_iff_ne]
  rcases List.mem_append.1 member with dot | member
  · rcases dotted with rfl | rfl
    · cases dot
    · have unmarked : ∀ c ∈ "...".toList, c ≠ '=' ∧ c ≠ ']' := by decide
      exact unmarked c dot
  · constructor
    · rintro rfl
      exact name.not_mem (by decide) member
    · rintro rfl
      exact name.not_mem (by decide) member

/-- Brackets before a name, dots before it and what begins with an equals sign or a bracket behind it
are no part of it. -/
theorem bareName_append {brackets dots : Text} (close : Text) (opening : ∀ c ∈ brackets, c = '[')
    (dotted : dots = [] ∨ dots = "...".toList) (stops : ∀ c ∈ close.head?, c = '=' ∨ c = ']') :
    bareName (brackets ++ (dots ++ (name.text ++ close))) = name.text := by
  have outside : ∀ c ∈ close.head?, (c != '=' && c != ']') = false := by
    intro c first
    rcases stops c first with rfl | rfl <;> rfl
  have undotted : ¬ "...".toList <+: name.text := by
    apply Text.not_prefix_of_head?
    rintro c first rfl
    exact name.dotless first
  rw [bareName, name.trimStartOf_brackets close opening dotted,
    Text.takeWhile_run (fun c => name.goesOn_of_mem dotted) outside]
  rcases dotted with rfl | rfl
  · exact Text.stripStartAll_of_not_prefix undotted
  · exact Text.stripStartAll_append undotted

theorem getLast? : ∃ d, name.text.getLast? = some d ∧ isBlank d = false := by
  cases last : name.text.getLast? with
  | none => exact absurd (List.getLast?_eq_none_iff.1 last) name.nonempty
  | some d => exact ⟨d, rfl, (name.plain d (List.mem_of_getLast? last)).1⟩

end ParameterName

theorem trim_of_blank {c : Char} (blank : isBlank c = true) (t : Text) : trim (c :: t) = trim t := by
  rw [trim, trim, Text.trimOf, Text.trimOf, trimStartOf, List.dropWhile_cons_of_pos blank]
  rfl

namespace ParameterText
variable (text : ParameterText)

theorem trimStartOf_text : trimStartOf (· == '-') text.text = text.text := by
  refine List.dropWhile_eq_self_iff.2 fun filled hyphen => text.hyphenless ?_
  rw [List.head?_eq_getElem?, List.getElem?_eq_getElem filled, beq_iff_eq.1 hyphen]

theorem remark_text : remark text.text = text.text := by
  rw [remark, text.trimmed, text.trimStartOf_text, text.trimmed]

theorem remark_hyphen : remark ('-' :: ' ' :: text.text) = text.text := by
  have trimmed : trim ('-' :: ' ' :: text.text) = '-' :: trimEnd (' ' :: text.text) :=
    Text.trimOf_append_cons (p := isBlank) (by decide) [] (' ' :: text.text)
  -- behind the hyphen there is a space, or nothing at all
  have behind : trimStartOf (· == '-') (trimEnd (' ' :: text.text)) = trimEnd (' ' :: text.text) := by
    obtain ⟨dropped, whole⟩ := Text.exists_eq_trimEndOf_append isBlank (' ' :: text.text)
    cases kept : trimEnd (' ' :: text.text) with
    | nil => rfl
    | cons c rest =>
        rw [show Text.trimEndOf isBlank (' ' :: text.text) = c :: rest from kept] at whole
        obtain rfl : ' ' = c := (List.cons.inj whole).1
        rfl
  rw [remark, trimmed, trimStartOf, List.dropWhile_cons_of_pos rfl, ← trimStartOf, behind]
  exact (Text.trimOf_trimEndOf isBlank _).trans
    ((trim_of_blank (by decide) text.text).trans text.trimmed)

end ParameterText

namespace NameForm
variable (name : ParameterName)

theorem exists_start (form : NameForm) :
    ∃ c, (form.write name.text).head? = some c ∧ isBlank c = false ∧ c ≠ '{' := by
  cases form with
  | plain =>
      obtain ⟨c, rest, start, visible, plain⟩ := name.exists_start
      refine ⟨c, by rw [write, start]; rfl, visible, ?_⟩
      rintro rfl
      exact plain (by decide)
  | rest => exact ⟨'.', rfl, by decide, by decide⟩
  | optional => exact ⟨'[', rfl, by decide, by decide⟩
  | defaulted value => exact ⟨'[', rfl, by decide, by decide⟩

theorem exists_last (form : NameForm) :
    ∃ d, (form.write name.text).getLast? = some d ∧ isBlank d = false := by
  have bracketed (t : Text) : ∃ d, ('[' :: (t ++ [']'])).getLast? = some d ∧ isBlank d = false :=
    ⟨']', List.getLast?_eq_some_iff.2 ⟨'[' :: t, rfl⟩, by decide⟩
  cases form with
  | plain => exact name.getLast?
  | rest =>
      obtain ⟨d, last, visible⟩ := name.getLast?
      exact ⟨d, by rw [write, List.getLast?_append, last, Option.some_or], visible⟩
  | optional => exact bracketed name.text
  | defaulted value =>
      have ends := bracketed (name.text ++ '=' :: value)
      rwa [List.append_assoc, List.cons_append] at ends

theorem visible_write {form : NameForm} (spaceless : ∀ c ∈ form.value, isBlank c = false) :
    ∀ c ∈ form.write name.text, isBlank c = false := by
  have named : ∀ c ∈ name.text, isBlank c = false := fun c member => (name.plain c member).1
  have equals : isBlank '=' = false := by decide
  have opening : isBlank '[' = false := by decide
  have closing : isBlank ']' = false := by decide
  cases form with
  | plain => exact named
  | rest => exact List.forall_mem_append.2 ⟨by decide, named⟩
  | optional =>
      exact List.forall_mem_cons.2 ⟨opening, List.forall_mem_append.2
        ⟨named, List.forall_mem_singleton.2 closing⟩⟩
  | defaulted value =>
      exact List.forall_mem_cons.2 ⟨opening, List.forall_mem_append.2
        ⟨named, List.forall_mem_cons.2 ⟨equals, List.forall_mem_append.2
          ⟨spaceless, List.forall_mem_singleton.2 closing⟩⟩⟩⟩

theorem bareName_write (form : NameForm) : bareName (form.write name.text) = name.text := by
  have bracket : ∀ c ∈ ['['], c = '[' := List.forall_mem_singleton.2 rfl
  cases form with
  | plain =>
      have bare := name.bareName_append [] (List.forall_mem_nil _) (.inl rfl) nofun
      rwa [List.append_nil] at bare
  | rest =>
      have bare := name.bareName_append [] (List.forall_mem_nil _) (.inr rfl) nofun
      rwa [List.append_nil] at bare
  | optional =>
      refine name.bareName_append _ bracket (.inl rfl) fun c first => .inr ?_
      exact (Option.some.inj first).symm
  | defaulted value =>
      refine name.bareName_append _ bracket (.inl rfl) fun c first => .inl ?_
      exact (Option.some.inj first).symm

end NameForm

namespace ParameterTag
variable {tag : ParameterTag}

theorem writtenText_eq : tag.writtenText =
    ' ' :: (if tag.hyphen then '-' :: ' ' :: tag.text.text else tag.text.text) := by
  rw [writtenText]
  split <;> rfl

theorem stripTypeBraces_write :
    stripTypeBraces tag.write = tag.writtenName ++ trimEnd tag.writtenText := by
  obtain ⟨c, first, visible, plain⟩ := NameForm.exists_start tag.name tag.form
  obtain ⟨d, last, visible'⟩ := NameForm.exists_last tag.name tag.form
  have trimmed : trim (tag.writtenName ++ tag.writtenText) =
      tag.writtenName ++ trimEnd tag.writtenText := by
    refine Text.trimOf_append_of_ends (fun e start => ?_) last visible' _
    obtain rfl : c = e := Option.some.inj (first.symm.trans start)
    exact visible
  cases type : tag.type with
  | none =>
      have start : (trim (tag.writtenName ++ tag.writtenText)).head? = some c := by
        rw [trimmed, List.head?_append, writtenName, first, Option.some_or]
      rw [write, type, stripTypeBraces_of_head?, trimmed]
      rw [start]
      exact fun brace => plain (Option.some.inj brace)
  | some t =>
      rw [write, type, stripTypeBraces_type (tag.balanced t type), trim_of_blank (by decide), trimmed]

theorem isBlank_of_head? : ∀ c ∈ (trimEnd tag.writtenText).head?, isBlank c = true := by
  intro c first
  obtain ⟨dropped, whole⟩ := Text.exists_eq_trimEndOf_append isBlank tag.writtenText
  have start : tag.writtenText.head? = some c := by
    rw [whole, List.head?_append, show (Text.trimEndOf isBlank _).head? = _ from first, Option.some_or]
  rw [writtenText_eq] at start
  obtain rfl := Option.some.inj start
  decide

theorem remark_writtenText : remark (trimEnd tag.writtenText) = tag.text.text := by
  have space : ∀ c ∈ tag.writtenText.head?, isBlank c = true := by
    intro c first
    rw [writtenText_eq] at first
    exact Option.some.inj first ▸ by decide
  rw [remark_trimEnd, ← remark_tail space, writtenText_eq, List.tail_cons]
  split
  · exact tag.text.remark_hyphen
  · exact tag.text.remark_text

theorem parseParam_of_spaceless (spaceless : ∀ c ∈ tag.form.value, isBlank c = false) :
    parseParam tag.write = some (tag.name.text, tag.text.text) := by
  have bare := NameForm.bareName_write tag.name tag.form
  have parsed := parseParam_of_split stripTypeBraces_write
    (NameForm.visible_write tag.name spaceless) isBlank_of_head?
    (by rw [writtenName, bare]; exact tag.name.nonempty)
  rw [parsed, writtenName, bare, remark_writtenText]

/-- At a blank in the default value the name ends, and the rest of the value goes to the text. -/
theorem parseParam_of_spaced {c : Char} (member : c ∈ tag.form.value) (blank : isBlank c = true) :
    ∃ rest, ']' ∈ rest ∧ parseParam tag.write = some (tag.name.text, rest ++ tag.text.text) := by
  have value : tag.form = .defaulted tag.form.value := by
    cases form : tag.form with
    | defaulted value => rfl
    | _ =>
        rw [form] at member
        cases member
  obtain ⟨d, found⟩ := Option.isSome_iff_exists.1 (List.find?_isSome.2 ⟨c, member, blank⟩)
  obtain ⟨blank, lead, rest, split, visible⟩ := List.find?_eq_some_iff_append.1 found
  obtain ⟨before, kept⟩ := Text.exists_trimEndOf_append tag.text.trimmed
    (if tag.hyphen then " - ".toList else " ".toList)
  have bare : bareName ('[' :: (tag.name.text ++ '=' :: lead)) = tag.name.text :=
    tag.name.bareName_append _ (List.forall_mem_singleton.2 rfl) (.inl rfl)
      fun e first => .inl (Option.some.inj first).symm
  have opening : stripTypeBraces tag.write =
      '[' :: (tag.name.text ++ '=' :: lead) ++ d :: (rest ++ ']' :: (before ++ tag.text.text)) := by
    rw [stripTypeBraces_write, writtenName, value, NameForm.write, split, writtenText, trimEnd, kept]
    simp only [List.cons_append, List.append_assoc, List.nil_append]
  have inside : ∀ e ∈ '[' :: (tag.name.text ++ '=' :: lead), isBlank e = false := by
    refine List.forall_mem_cons.2 ⟨by decide, List.forall_mem_append.2
      ⟨fun e named => (tag.name.plain e named).1, List.forall_mem_cons.2
        ⟨by decide, fun e among => ?_⟩⟩⟩
    simpa using visible e among
  have outside : ∀ e ∈ (d :: (rest ++ ']' :: (before ++ tag.text.text))).head?, isBlank e = true := by
    intro e first
    obtain rfl : d = e := Option.some.inj first
    exact blank
  have stays : trimEnd (before ++ tag.text.text) = before ++ tag.text.text := by
    rw [← kept, trimEnd, Text.trimEndOf_trimEndOf]
  refine ⟨trimStart (trimStartOf (· == '-') (trimStart rest)) ++ ']' :: before, by simp, ?_⟩
  rw [parseParam_of_split opening inside outside (by rw [bare]; exact tag.name.nonempty), bare,
    ← remark_tail outside, List.tail_cons, remark_bracket stays, List.append_assoc, List.cons_append]

end ParameterTag

/-- The name comes back always, and the text with it exactly if there is no blank in the default
value; otherwise the text begins with what is left of the value behind its first blank. -/
theorem parseParam_write (tag : ParameterTag) :
    (parseParam tag.write = some (tag.name.text, tag.text.text) ↔
      ∀ c ∈ tag.form.value, isBlank c = false) ∧
    ((∃ c ∈ tag.form.value, isBlank c = true) → ∃ rest, ']' ∈ rest ∧
      parseParam tag.write = some (tag.name.text, rest ++ tag.text.text)) := by
  have spaced : (∃ c ∈ tag.form.value, isBlank c = true) → ∃ rest, ']' ∈ rest ∧
      parseParam tag.write = some (tag.name.text, rest ++ tag.text.text) := by
    rintro ⟨c, member, blank⟩
    exact tag.parseParam_of_spaced member blank
  refine ⟨⟨?_, ParameterTag.parseParam_of_spaceless⟩, spaced⟩
  intro parsed c member
  rw [Bool.eq_false_iff]
  intro blank
  obtain ⟨rest, bracket, other⟩ := spaced ⟨c, member, blank⟩
  have same : rest ++ tag.text.text = tag.text.text :=
    congrArg Prod.snd (Option.some.inj (other.symm.trans parsed))
  rw [List.append_left_eq_self.1 same] at bracket
  cases bracket

/-- A default value with spaces in braces, and a text behind a hyphen. -/
def spacedTag : ParameterTag where
  type := none
  balanced := nofun
  form := .defaulted "\x7b a: 1 \x7d".toList
  name := ⟨"opts".toList, by decide, by decide, by decide⟩
  hyphen := true
  text := ⟨"text".toList, by decide, by decide⟩

/-- The rest of the default value is taken for a part of the text. -/
theorem parseParam_spacedTag :
    spacedTag.write = "[opts=\x7b a: 1 \x7d] - text".toList ∧
    Balanced spacedTag.form.value ∧
    parseParam spacedTag.write = some ("opts".toList, "a: 1 \x7d] - text".toList) := by
  refine ⟨by decide, ?_, by decide⟩
  have inner : Balanced " a: 1 ".toList := balanced_of_forall (by decide)
  exact inner.braces .nil

end ApiReference.Declaration.Documentation
