import ApiReference.Proofs.Query.Published
import ApiReference.Proofs.Text.LowerForms

/-!
# Versions as tokens

What is read as a version is made of numbers and a prerelease. In lower case it is a token that is
nothing but a version, alone and behind the letter v, but not behind an at sign.
Main statements: `isVersion_of_extract?`, `IsVersion.lower`, `IsVersion.accepts`, `not_accepts_sign`.
-/

namespace ApiReference.Query.Version
open ApiReference.Text (Pattern Hit isDecimal isBlank isAsciiDigit trimEndOf IsPlain)
open ApiReference.Text.Pattern (Reads)

/-- Nothing, or a hyphen, a character of a class, and more of them and dots. -/
inductive IsPrerelease (p : Char → Bool) : Text → Prop where
  | none : IsPrerelease p []
  | some {c : Char} {more : Text} (first : p c = true)
      (among : ∀ d ∈ more, (p d || d == '.') = true) : IsPrerelease p ('-' :: c :: more)

/-- Numbers with dots between them and a prerelease. -/
inductive IsVersion (p : Char → Bool) : Text → Prop where
  | of {n : Text} {ns : List Text} {suffix : Text} (number : IsNumber n)
      (numbers : ∀ m ∈ ns, IsNumber m) (prerelease : IsPrerelease p suffix) :
      IsVersion p (n ++ (dotted ns ++ suffix))

section
variable {h h' : Hit}

theorem reads_number (reads : Reads digits h h') : ∃ n, IsNumber n ∧ h.Passes n h' := by
  obtain ⟨c, w, digit, each, passes⟩ := reads.some_one
  exact ⟨c :: w, ⟨List.cons_ne_nil c w, List.forall_mem_cons.2 ⟨digit, each⟩⟩, passes⟩

theorem reads_fraction (reads : Reads dotDigits h h') :
    ∃ n, IsNumber n ∧ h.Passes ('.' :: n) h' := by
  obtain ⟨m, dot, more⟩ := Text.Pattern.reads_seq.1 reads
  obtain ⟨c, rest, next, isDot, rfl⟩ := Text.Pattern.reads_one.1 dot
  obtain rfl : c = '.' := beq_iff_eq.1 isDot
  obtain ⟨n, number, passes⟩ := reads_number more
  exact ⟨n, number, (Hit.Passes.char next).trans passes⟩

/-- Numbers that must or may follow, each after a dot. -/
theorem reads_numbers {ps : List Pattern} (each : ∀ p ∈ ps, p = dotDigits ∨ p = .opt dotDigits)
    {q : Pattern} (reads : Reads (ps.foldr .seq q) h h') :
    ∃ ns m, (∀ n ∈ ns, IsNumber n) ∧ h.Passes (dotted ns) m ∧ Reads q m h' := by
  induction ps generalizing h with
  | nil => exact ⟨[], h, List.forall_mem_nil _, .refl h, reads⟩
  | cons p ps ih =>
      obtain ⟨first, rest⟩ := List.forall_mem_cons.1 each
      obtain ⟨m, reads, more⟩ := Text.Pattern.reads_seq.1 reads
      obtain ⟨ns, m', numbers, passes, last⟩ := ih rest more
      have one : Reads dotDigits h m ∨ m = h := by
        rcases first with rfl | rfl
        · exact .inl reads
        · cases reads with
          | preferred reads => exact .inl reads
          | other reads =>
              cases reads
              exact .inr rfl
      rcases one with reads | rfl
      · obtain ⟨n, number, passed⟩ := reads_fraction reads
        exact ⟨n :: ns, m', List.forall_mem_cons.2 ⟨number, numbers⟩, passed.trans passes, last⟩
      · exact ⟨ns, m', numbers, passes, last⟩

theorem reads_opt_prerelease (reads : Reads (.all [.opt prerelease]) h h') :
    ∃ w, IsPrerelease isAsciiAlphanumeric w ∧ h.Passes w h' := by
  obtain ⟨m, reads, last⟩ := Text.Pattern.reads_all_cons.1 reads
  obtain rfl := Text.Pattern.reads_all_nil.1 last
  cases reads with
  | other reads =>
      cases reads
      exact ⟨[], .none, .refl h⟩
  | preferred reads =>
      obtain ⟨m₁, hyphen, reads⟩ := Text.Pattern.reads_all_cons.1 reads
      obtain ⟨m₂, letter, reads⟩ := Text.Pattern.reads_all_cons.1 reads
      obtain ⟨m₃, more, last⟩ := Text.Pattern.reads_all_cons.1 reads
      obtain rfl := Text.Pattern.reads_all_nil.1 last
      obtain ⟨c, rest, next, isHyphen, rfl⟩ := Text.Pattern.reads_one.1 hyphen
      obtain rfl : c = '-' := beq_iff_eq.1 isHyphen
      obtain ⟨d, rest', next', first, rfl⟩ := Text.Pattern.reads_one.1 letter
      obtain ⟨w, among, passes⟩ := more.many_one
      exact ⟨'-' :: d :: w, .some first among,
        (Hit.Passes.char next).trans ((Hit.Passes.char next').trans passes)⟩

theorem reads_version (ps : List Pattern) (each : ∀ p ∈ ps, p = dotDigits ∨ p = .opt dotDigits)
    {q : Pattern} (last : ∀ {m : Hit}, Reads q m h' →
      ∃ w, IsPrerelease isAsciiAlphanumeric w ∧ m.Passes w h')
    (reads : Reads (.seq digits (ps.foldr .seq q)) h h') :
    ∃ w, IsVersion isAsciiAlphanumeric w ∧ h.Passes w h' := by
  obtain ⟨m, reads, more⟩ := Text.Pattern.reads_seq.1 reads
  obtain ⟨n, number, passes⟩ := reads_number reads
  obtain ⟨ns, m', numbers, passes', more⟩ := reads_numbers each more
  obtain ⟨suffix, prerelease, passes''⟩ := last more
  exact ⟨_, .of number numbers prerelease, passes.trans (passes'.trans passes'')⟩

end

/-- Where a version ends with a number there are no dots to cut off, and elsewhere those of the
prerelease. -/
theorem IsVersion.trimEndOf {w : Text} (version : IsVersion isAsciiAlphanumeric w) :
    IsVersion isAsciiAlphanumeric (trimEndOf (· == '.') w) := by
  obtain @⟨n, ns, _, number, numbers, prerelease⟩ := version
  cases prerelease with
  | none =>
      obtain ⟨c, last, digit⟩ := exists_getLast?_join (List.cons_ne_nil _ _)
        (List.forall_mem_cons.2 ⟨number, numbers⟩) ['.']
      rw [join_cons_eq] at last
      rw [List.append_nil, Text.trimEndOf_of_getLast? last (isDecimal_ne_dot digit)]
      have whole := IsVersion.of number numbers (.none (p := isAsciiAlphanumeric))
      rwa [List.append_nil] at whole
  | @some c more first among =>
      have kept : (c == '.') = false := by
        rw [beq_eq_false_iff_ne]
        rintro rfl
        exact absurd first (by decide)
      obtain ⟨dropped, split⟩ := Text.exists_eq_trimEndOf_append (· == '.') more
      rw [split] at among
      have whole := IsVersion.of number numbers
        (.some first (List.forall_mem_append.1 among).1)
      have trimmed := Text.trimEndOf_append_cons (p := (· == '.')) kept
        (n ++ (dotted ns ++ ['-'])) more
      simp only [List.append_assoc, List.singleton_append] at trimmed
      rwa [trimmed]

theorem isVersion_of_extract? {query v : Text} (extracted : extract? query = some v) :
    IsVersion isAsciiAlphanumeric v := by
  have nothing {m h' : Hit} (reads : Reads (.all []) m h') :
      ∃ w, IsPrerelease isAsciiAlphanumeric w ∧ m.Passes w h' := by
    obtain rfl := Text.Pattern.reads_all_nil.1 reads
    exact ⟨[], .none, .refl _⟩
  have taken : ∃ w, IsVersion isAsciiAlphanumeric w ∧ v = Text.trimEndOf (· == '.') w :=
    exists_taken_of_extract?
      (reads_version [.opt dotDigits, .opt dotDigits] (by simp) reads_opt_prerelease)
      (reads_version [.opt dotDigits, .opt dotDigits] (by simp) nothing)
      (reads_version [dotDigits, .opt dotDigits] (by simp) reads_opt_prerelease) extracted
  obtain ⟨w, version, rfl⟩ := taken
  exact version.trimEndOf

def isLowerAlphanumeric (c : Char) : Bool := isAsciiDigit c || c.isLower

theorem isLowerAlphanumeric_toLower {c : Char} (fits : isAsciiAlphanumeric c = true) :
    isLowerAlphanumeric c.toLower = true := by
  have listed : ∀ n < 128, isAsciiAlphanumeric (Char.ofNat n) = true →
      isLowerAlphanumeric (Char.ofNat n).toLower = true := by
    decide +kernel
  have range := Text.toNat_of_isAlphanum fits
  have found := listed c.toNat (by omega)
  rw [Char.ofNat_toNat] at found
  exact found fits

theorem IsNumber.map_toLower {n : Text} (number : IsNumber n) : n.map Char.toLower = n := by
  have same : ∀ c ∈ n, c.toLower = id c := fun c member =>
    Text.toLower_of_isSmall (Text.isSmall_of_isDecimal (number.2 c member))
  rw [List.map_congr_left same, List.map_id]

theorem map_toLower_dotted {ns : List Text} (numbers : ∀ n ∈ ns, IsNumber n) :
    (dotted ns).map Char.toLower = dotted ns := by
  induction ns with
  | nil => rfl
  | cons n ns ih =>
      obtain ⟨number, numbers⟩ := List.forall_mem_cons.1 numbers
      have split : dotted (n :: ns) = '.' :: (n ++ dotted ns) := rfl
      rw [split, List.map_cons, List.map_append, number.map_toLower, ih numbers]
      rfl

theorem IsPrerelease.map_toLower {w : Text} (prerelease : IsPrerelease isAsciiAlphanumeric w) :
    IsPrerelease isLowerAlphanumeric (w.map Char.toLower) := by
  cases prerelease with
  | none => exact .none
  | some first among =>
      refine .some (isLowerAlphanumeric_toLower first) fun d member => ?_
      obtain ⟨e, inside, rfl⟩ := List.mem_map.1 member
      rcases Bool.or_eq_true_iff.1 (among e inside) with fits | dot
      · rw [isLowerAlphanumeric_toLower fits, Bool.true_or]
      · obtain rfl : e = '.' := beq_iff_eq.1 dot
        rfl

theorem mem_dotted {ns : List Text} {c : Char} (numbers : ∀ n ∈ ns, IsNumber n)
    (member : c ∈ dotted ns) : isDecimal c = true ∨ c = '.' := by
  obtain ⟨n, listed, inside⟩ := List.mem_flatMap.1 member
  rcases List.mem_cons.1 inside with rfl | inside
  · exact .inr rfl
  · exact .inl ((numbers n listed).2 c inside)

namespace IsVersion
variable {w : Text} (version : IsVersion isAsciiAlphanumeric w)
include version

theorem forall_mem : ∀ c ∈ w, isDecimal c = true ∨ isAsciiAlphanumeric c = true ∨ c = '.' ∨
    c = '-' := by
  obtain ⟨number, numbers, prerelease⟩ := version
  intro c member
  rcases List.mem_append.1 member with member | member
  · exact .inl (number.2 c member)
  rcases List.mem_append.1 member with member | member
  · exact (mem_dotted numbers member).imp_right fun dot => .inr (.inl dot)
  cases prerelease with
  | none => cases member
  | some first among =>
      rcases List.mem_cons.1 member with rfl | member
      · exact .inr (.inr (.inr rfl))
      rcases List.mem_cons.1 member with rfl | member
      · exact .inr (.inl first)
      · exact .inr ((Bool.or_eq_true_iff.1 (among c member)).imp_right fun dot =>
          .inl (beq_iff_eq.1 dot))

theorem plain : ∀ c ∈ w, IsPlain c := by
  intro c member
  rcases version.forall_mem c member with digit | fits | rfl | rfl
  · exact .inr (Text.isSmall_of_isDecimal digit)
  · have range := Text.toNat_of_isAlphanum fits
    exact .inl (by omega)
  · exact .inl (by decide)
  · exact .inl (by decide)

theorem not_mem_sign : '@' ∉ w := by
  intro member
  rcases version.forall_mem '@' member with digit | fits | same | same
  · exact absurd digit (by decide)
  · exact absurd fits (by decide)
  · exact absurd same (by decide)
  · exact absurd same (by decide)

theorem lower : IsVersion isLowerAlphanumeric (Text.lower w) := by
  rw [Text.lower_eq_map version.plain]
  obtain ⟨number, numbers, prerelease⟩ := version
  rw [List.map_append, List.map_append, number.map_toLower, map_toLower_dotted numbers]
  exact .of number numbers prerelease.map_toLower

end IsVersion

section
variable {h : Hit} {n suffix rest : Text} {ns : List Text}

theorem exists_reads_number (next : h.rest = n ++ rest) (number : IsNumber n) :
    ∃ h', Reads digits h h' ∧ h'.rest = rest := by
  obtain ⟨c, n, rfl⟩ := List.exists_cons_of_ne_nil number.1
  obtain ⟨digit, each⟩ := List.forall_mem_cons.1 number.2
  have first := Text.Pattern.reads_one.2 ⟨c, n ++ rest, next, digit, rfl⟩
  obtain ⟨h', more, last⟩ := Text.Pattern.exists_reads_many_one (h := { h with
    taken := c :: h.taken, before := some c, rest := n ++ rest }) rfl each
  exact ⟨h', .seq first more, last⟩

theorem exists_reads_numbers (next : h.rest = dotted ns ++ rest)
    (numbers : ∀ n ∈ ns, IsNumber n) : ∃ h', Reads (.many dotDigits) h h' ∧ h'.rest = rest := by
  induction ns generalizing h with
  | nil => exact ⟨h, .stop, next⟩
  | cons n ns ih =>
      obtain ⟨number, numbers⟩ := List.forall_mem_cons.1 numbers
      have next : h.rest = '.' :: (n ++ (dotted ns ++ rest)) := by
        rw [next, dotted, List.flatMap_cons, List.cons_append, List.cons_append, List.append_assoc]
        rfl
      have dot := Text.Pattern.reads_one (p := (· == '.')).2 ⟨'.', _, next, rfl, rfl⟩
      obtain ⟨m, fraction, after⟩ := exists_reads_number (h := { h with
        taken := '.' :: h.taken, before := some '.', rest := n ++ (dotted ns ++ rest) }) rfl number
      obtain ⟨h', more, last⟩ := ih after numbers
      refine ⟨h', .again (.seq dot fraction) ?_ more, last⟩
      rw [next, after, List.length_cons, List.length_append, List.length_append,
        List.length_append]
      omega

theorem exists_reads_suffix (next : h.rest = suffix)
    (prerelease : IsPrerelease isLowerAlphanumeric suffix) :
    ∃ h', Reads (.opt (.all [.one (· == '-'), .one isLowerAlphanumeric,
      .many (.one fun c => isLowerAlphanumeric c || c == '.')])) h h' ∧ h'.rest = [] := by
  cases prerelease with
  | none => exact ⟨h, .other .empty, next⟩
  | @some c more first among =>
      have hyphen := Text.Pattern.reads_one (p := (· == '-')).2 ⟨'-', _, next, rfl, rfl⟩
      have letter := Text.Pattern.reads_one (h := { h with
        taken := '-' :: h.taken, before := some '-', rest := c :: more }).2 ⟨c, more, rfl, first, rfl⟩
      obtain ⟨h', others, last⟩ := Text.Pattern.exists_reads_many_one (h := { h with
        taken := c :: '-' :: h.taken, before := some c, rest := more })
        (List.append_nil more).symm among
      exact ⟨h', .preferred (.seq hyphen (.seq letter (.seq others .empty))), last⟩

end

section
variable {w : Text} (version : IsVersion isLowerAlphanumeric w)
include version

theorem IsVersion.exists_reads {h : Hit} (next : h.rest = w) : ∃ h', Reads (.all [digits,
    .many dotDigits, .opt (.all [.one (· == '-'), .one isLowerAlphanumeric,
      .many (.one fun c => isLowerAlphanumeric c || c == '.')])]) h h' ∧ h'.rest = [] := by
  obtain ⟨number, numbers, prerelease⟩ := version
  obtain ⟨m, first, after⟩ := exists_reads_number next number
  obtain ⟨m', second, after⟩ := exists_reads_numbers after numbers
  obtain ⟨h', third, last⟩ := exists_reads_suffix after prerelease
  exact ⟨h', .seq first (.seq second (.seq third .empty)), last⟩

theorem IsVersion.accepts : token.accepts w = true ∧ token.accepts ('v' :: w) = true := by
  have accepts {t : Text} {h : Hit} (reads : Reads token (.start none t) h) (last : h.rest = []) :
      token.accepts t = true :=
    List.any_eq_true.2 ⟨h, reads.mem_ends, List.isEmpty_iff.2 last⟩
  constructor
  · obtain ⟨h, reads, last⟩ := version.exists_reads (h := .start none w) rfl
    exact accepts (.seq (.other .empty) reads) last
  · have letter := Text.Pattern.reads_one (p := (· == 'v')) (h := .start none ('v' :: w)).2
      ⟨'v', w, rfl, rfl, rfl⟩
    obtain ⟨h, reads, last⟩ := version.exists_reads (h := ⟨['v'], none, some 'v', w⟩) rfl
    exact accepts (.seq (.preferred letter) reads) last

end

theorem not_accepts_sign (w : Text) : token.accepts ('@' :: w) = false := by
  rw [Bool.eq_false_iff]
  intro accepts
  obtain ⟨h, member, -⟩ := List.any_eq_true.1 accepts
  obtain ⟨m, letter, reads⟩ := Text.Pattern.reads_all_cons.1 (.of_mem_ends member)
  obtain ⟨m', number, -⟩ := Text.Pattern.reads_all_cons.1 reads
  cases letter with
  | preferred letter =>
      obtain ⟨c, rest, next, isV, -⟩ := Text.Pattern.reads_one.1 letter
      obtain ⟨rfl, -⟩ := List.cons.inj next
      exact absurd isV (by decide)
  | other nothing =>
      cases nothing
      obtain ⟨n, number, passes⟩ := reads_number number
      obtain ⟨c, n, rfl⟩ := List.exists_cons_of_ne_nil number.1
      obtain ⟨rfl, -⟩ := List.cons.inj passes.rest
      exact absurd (number.2 '@' List.mem_cons_self) (by decide)

end ApiReference.Query.Version
