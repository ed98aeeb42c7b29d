/-
This file is named environments: what a job's packages are, the text their key
in every cache is hashed from, and how the store keeps them.

The key sees a requirement without its whitespace and in lower case, all of it.
The letter case of a distribution name says nothing, but what comes after the
name may be a URL, an extra or a marker, where it does: the key tells two
environments apart exactly as long as nothing after a name has letters to tell.

The store keeps the requirements of an environment as lines, so it returns those
that are lines.
-/
import Mathlib.Data.Multiset.ZeroCons
import GpuBroker.Library.Json
import GpuBroker.Library.Table
import GpuBroker.Broker.Money
import GpuBroker.Broker.Tails

namespace GpuBroker.Broker

open Library

/-! ### Text -/

/-- The letters that Python counts as whitespace. -/
def whitespace : List Char :=
  ['\t', '\n', '\x0b', '\x0c', '\r', '\x1c', '\x1d', '\x1e', '\x1f', ' ', '\x85', '\xa0', '\u1680', '\u2000',
    '\u2001', '\u2002', '\u2003', '\u2004', '\u2005', '\u2006', '\u2007', '\u2008', '\u2009', '\u200a', '\u2028',
    '\u2029', '\u202f', '\u205f', '\u3000']

/-- A text without the whitespace at its front. -/
def lstrip (text : List Char) : List Char := text.dropWhile (· ∈ whitespace)

/-- A text without the whitespace at either end. -/
def strip (text : List Char) : List Char := (lstrip (lstrip text).reverse).reverse

/-- A text without its whitespace. -/
def unspaced (text : List Char) : List Char := text.filter (· ∉ whitespace)

/-- What a pattern that ends in `$` is matched against: a newline at the end of the text is left out. -/
def chomped (text : List Char) : List Char := if text.getLast? = some '\n' then text.dropLast else text

/-- A small letter or a digit, of ASCII. -/
def lowAlphanumeric (letter : Char) : Bool := ('a' ≤ letter ∧ letter ≤ 'z') || ('0' ≤ letter ∧ letter ≤ '9')

/-- A letter that neither becomes another in lower case nor comes of one: whitespace, and what is not a letter
in ASCII. -/
def caseless (letter : Char) : Bool := letter ∈ whitespace || (letter.toNat < 128 && !letter.isAlpha)

/-- What may come after the name of a distribution: extras, versions, a URL or a marker. -/
def specifierMarks : List Char := ['[', '(', '<', '>', '=', '!', '~', ';', '@']

/-- A text and what it may be in lower case: letters without case stay, the others become others that are not
without. -/
inductive Lowers : List Char → List Char → Prop
  | nil : Lowers [] []
  | fixed {letter : Char} {text low : List Char} : caseless letter → Lowers text low →
      Lowers (letter :: text) (letter :: low)
  | cased {letter : Char} {image text low : List Char} : ¬caseless letter → image ≠ [] →
      (∀ each ∈ image, ¬caseless each) → Lowers text low → Lowers (letter :: text) (image ++ low)

/-- How Python writes a text in lower case: letter by letter, each in a way that may depend on the letters
around it, though none across a mark that ends a distribution name, or on their case in ASCII. -/
structure Lowering where
  lower : List Char → List Char
  lowers : ∀ text, Lowers text (lower text)
  marks : ∀ front mark back, mark ∈ specifierMarks →
    lower (front ++ mark :: back) = lower front ++ mark :: lower back
  ascii : ∀ front letter back, lower (front ++ letter :: back) = lower (front ++ letter.toLower :: back)

/-! ### Environments -/

/-- A named place for a job to run. -/
structure Environment where
  name : List Char
  baseImage : List Char
  pythonVersion : List Char
  requirements : List (List Char)
  aptPackages : List (List Char)
  owner : List Char
  description : List Char
  createdAt : Option Time
  updatedAt : Option Time
deriving DecidableEq

/-- Why an environment is refused. -/
inductive EnvironmentError where
  | unusableName (name : List Char)
  | noBaseImage (name : List Char)
  | flagged (name line : List Char)
  | notApt (name package : List Char)

/-- What a refusal says; a text inside it is written as Python would. -/
def EnvironmentError.text (repr : List Char → String) : EnvironmentError → String
  | .unusableName name =>
      repr name ++ " is not a usable name. Use lowercase letters, digits, " ++
        "dots, dashes and underscores, 2 to 40 characters"
  | .noBaseImage name => String.ofList name ++ ": no base image"
  | .flagged name line =>
      String.ofList name ++ ": requirement " ++ repr line ++
        " is a pip flag, not a package. Flags refer to files the build cannot see"
  | .notApt name package => String.ofList name ++ ": " ++ repr package ++ " is not an apt package name"

/-- `^[a-z0-9][a-z0-9._-]{0,38}[a-z0-9]$` -/
def usableName (text : List Char) : Bool :=
  let name := chomped text
  2 ≤ name.length && name.length ≤ 40 && name.head?.any lowAlphanumeric && name.getLast?.any lowAlphanumeric &&
    name.all fun letter => lowAlphanumeric letter || letter ∈ ['.', '_', '-']

/-- `^[a-z0-9][a-z0-9+.:-]*$` -/
def aptName (text : List Char) : Bool :=
  let name := chomped text
  name.head?.any lowAlphanumeric && name.all fun letter => lowAlphanumeric letter || letter ∈ ['+', '.', ':', '-']

/-- Is a requirement a flag for pip? -/
def pipFlag (line : List Char) : Bool := (strip line).head? = some '-'

namespace Environment

def validate (environment : Environment) : Except EnvironmentError Unit :=
  if !usableName environment.name then .error (.unusableName environment.name)
  else if environment.baseImage = [] then .error (.noBaseImage environment.name)
  else
    match environment.requirements.find? pipFlag with
    | some line => .error (.flagged environment.name (strip line))
    | none =>
        match environment.aptPackages.find? fun package => !aptName package with
        | some package => .error (.notApt environment.name package)
        | none => .ok ()

/-- A requirement as the key sees it. -/
def normalise (lowering : Lowering) (requirement : List Char) : List Char := lowering.lower (unspaced requirement)

/-- There is no number in what is hashed. -/
def unnumbered : Numerals Empty where
  write := Empty.elim
  inj := fun one => one.elim
  unstopped := fun value => value.elim
  begins := fun value => value.elim

/-- The text that the key is hashed from. -/
def spec (lowering : Lowering) (environment : Environment) : List Char :=
  canonical unnumbered <| .object
    [("base".toList, .text environment.baseImage),
      ("python".toList, .text environment.pythonVersion),
      ("pip".toList,
        .array (((environment.requirements.map (normalise lowering)).insertionSort (· ≤ ·)).map .text)),
      ("apt".toList, .array ((environment.aptPackages.insertionSort (· ≤ ·)).map .text))]

/-- The key of an environment in every cache. -/
def digest (hash : List Char → List Char) (lowering : Lowering) (environment : Environment) : List Char :=
  (hash (environment.spec lowering)).take 16

/-- Nothing to install: the base image is already the environment. -/
def empty (environment : Environment) : Bool := environment.requirements.isEmpty && environment.aptPackages.isEmpty

/-- The packages an image or a virtual environment is asked for, in order. -/
def pipArguments (environment : Environment) : List (List Char) := environment.requirements.insertionSort (· ≤ ·)

def aptArguments (environment : Environment) : List (List Char) := environment.aptPackages.insertionSort (· ≤ ·)

end Environment

/-! ### Builds -/

/-- A letter that no shell reads as anything but itself. -/
def shellSafe (letter : Char) : Bool :=
  letter.isAlphanum || letter ∈ ['_', '@', '%', '+', '=', ':', ',', '.', '/', '-']

/-- A text as one word of a shell command. -/
def shellQuote (text : List Char) : List Char :=
  if text = [] then "''".toList
  else if text.all shellSafe then text
  else '\x27' :: (text.flatMap fun letter => if letter = '\x27' then "'\"'\"'".toList else [letter]) ++ ['\x27']

/-- Words of a shell command. -/
def shellWords (texts : List (List Char)) : String := String.ofList ([' '].intercalate (texts.map shellQuote))

namespace Environment

/-- The image of an environment, where every machine is fresh. -/
def dockerfile (hash : List Char → List Char) (lowering : Lowering) (environment : Environment) : String :=
  let apt :=
    if environment.aptPackages = [] then []
    else
      ["RUN apt-get update && DEBIAN_FRONTEND=noninteractive apt-get install -y --no-install-recommends " ++
        shellWords environment.aptArguments ++ " && rm -rf /var/lib/apt/lists/*"]
  let pip :=
    if environment.requirements = [] then []
    else ["RUN pip install --no-cache-dir " ++ shellWords environment.pipArguments]
  let label :=
    "LABEL gpu-broker.environment=\"" ++ String.ofList environment.name ++ "\" gpu-broker.digest=\"" ++
      String.ofList (environment.digest hash lowering) ++ "\""
  "\n".intercalate (["FROM " ++ String.ofList environment.baseImage] ++ apt ++ pip ++ [label]) ++ "\n"

def venvPath (hash : List Char → List Char) (lowering : Lowering) (root : String) (environment : Environment) :
    String := root ++ "/" ++ String.ofList (environment.digest hash lowering)

/-- The virtual environment of the lab machine, built beside its place and moved there; where one is there, it is
taken as it is. -/
def venvScript (hash : List Char → List Char) (lowering : Lowering) (root : String) (environment : Environment) :
    String :=
  let quoted := fun text : String => String.ofList (shellQuote text.toList)
  let target := environment.venvPath hash lowering root
  let staging := root ++ "/.building-" ++ String.ofList (environment.digest hash lowering)
  let pip := shellWords environment.pipArguments
  let install :=
    if pip = "" then "true" else staging ++ "/bin/pip install --disable-pip-version-check -q " ++ pip
  let python :=
    if environment.pythonVersion = [] then "python3" else "python" ++ String.ofList environment.pythonVersion
  "set -e; if [ -x " ++ quoted target ++ "/bin/python ]; then exit 0; fi; mkdir -p " ++ quoted root ++
    "; rm -rf " ++ quoted staging ++ "; " ++ python ++ " -m venv " ++ quoted staging ++ "; " ++ staging ++
    "/bin/pip install --disable-pip-version-check -q --upgrade pip; " ++ install ++ "; mv " ++ quoted staging ++
    " " ++ quoted target

end Environment

/-! ### Rows -/

/-- An environment as the store keeps it. -/
structure EnvironmentRow where
  name : List Char
  digest : List Char
  baseImage : List Char
  pythonVersion : List Char
  requirements : List Char
  aptPackages : List Char
  owner : List Char
  description : List Char
  createdAt : Time
  updatedAt : Time

/-- The environments of a store. -/
abbrev EnvironmentRows := Table EnvironmentRow EnvironmentRow.name

/-- Lines in one text, with a newline between two of them. -/
def lineText (lines : List (List Char)) : List Char := ['\n'].intercalate lines

/-- The lines of a text that are not all whitespace. -/
def readLines (text : List Char) : List (List Char) := (pieces text).filter fun line => strip line ≠ []

/-- The row of an environment that is saved. -/
def Environment.row (hash : List Char → List Char) (lowering : Lowering) (now : Time) (environment : Environment) :
    EnvironmentRow :=
  { name := environment.name, digest := environment.digest hash lowering, baseImage := environment.baseImage,
    pythonVersion := environment.pythonVersion, requirements := lineText environment.requirements,
    aptPackages := lineText environment.aptPackages, owner := environment.owner,
    description := environment.description, createdAt := environment.createdAt.getD now, updatedAt := now }

namespace EnvironmentRows

/-- What is kept of an environment is what it says now, but for who wrote it first and when. -/
def saveEnvironment (rows : EnvironmentRows) (hash : List Char → List Char) (lowering : Lowering)
    (environment : Environment) (now : Time) : EnvironmentRows × Environment :=
  let row := environment.row hash lowering now
  let kept := rows.modify environment.name fun old =>
    { old with
      digest := row.digest, baseImage := row.baseImage, pythonVersion := row.pythonVersion,
      requirements := row.requirements, aptPackages := row.aptPackages, description := row.description,
      updatedAt := row.updatedAt }
  ((rows.insert row).getD kept,
    { environment with createdAt := some (environment.createdAt.getD now), updatedAt := some now })

def environmentOf (row : EnvironmentRow) : Environment :=
  { name := row.name, baseImage := row.baseImage, pythonVersion := row.pythonVersion,
    requirements := readLines row.requirements, aptPackages := readLines row.aptPackages, owner := row.owner,
    description := row.description, createdAt := some row.createdAt, updatedAt := some row.updatedAt }

/-- The environment of a name. -/
def environment (rows : EnvironmentRows) (name : List Char) : Option Environment :=
  (rows.find name).map environmentOf

end EnvironmentRows

/-! ### Lower case -/

namespace Lowers

theorem mem_iff {text low : List Char} (lowers : Lowers text low) {letter : Char} (fixed : caseless letter) :
    letter ∈ low ↔ letter ∈ text := by
  induction lowers with
  | nil => rfl
  | fixed stays rest shorter => rw [List.mem_cons, List.mem_cons, shorter]
  | @cased other image text low changes some cased rest shorter =>
      rw [List.mem_append, List.mem_cons, shorter]
      constructor
      · rintro (made | later)
        · exact absurd fixed (cased letter made)
        · exact Or.inr later
      · rintro (rfl | later)
        · exact absurd fixed changes
        · exact Or.inr later

/-- A letter without case stands between what the text before it becomes and what the text after it does. -/
theorem split {front back low : List Char} {letter : Char} (fixed : caseless letter)
    (lowers : Lowers (front ++ letter :: back) low) :
    ∃ before after, low = before ++ letter :: after ∧ Lowers front before ∧ Lowers back after := by
  induction front generalizing low with
  | nil =>
      cases lowers with
      | fixed _ rest => exact ⟨[], _, rfl, Lowers.nil, rest⟩
      | cased changes _ _ _ => exact absurd fixed changes
  | cons first front shorter =>
      cases lowers with
      | fixed stays rest =>
          obtain ⟨before, after, rfl, begins, ends⟩ := shorter rest
          exact ⟨first :: before, after, rfl, Lowers.fixed stays begins, ends⟩
      | @cased _ image _ _ changes some cased rest =>
          obtain ⟨before, after, rfl, begins, ends⟩ := shorter rest
          exact ⟨image ++ before, after, (List.append_assoc _ _ _).symm, Lowers.cased changes some cased begins,
            ends⟩

/-- Letters of a kind that all letters with case are of become letters of that kind. -/
theorem of_kind {kind : Char → Prop} (cased : ∀ letter, ¬caseless letter → kind letter) {text low : List Char}
    (lowers : Lowers text low) (held : ∀ letter ∈ text, kind letter) : ∀ letter ∈ low, kind letter := by
  intro letter member
  by_cases fixed : caseless letter
  · exact held letter ((lowers.mem_iff fixed).mp member)
  · exact cased letter fixed

/-- A text whose lower case is without case is its own. -/
theorem eq_of_caseless {text low : List Char} (lowers : Lowers text low)
    (plain : ∀ letter ∈ low, caseless letter) : text = low := by
  induction lowers with
  | nil => rfl
  | fixed _ _ shorter => rw [shorter fun letter member => plain letter (List.mem_cons_of_mem _ member)]
  | @cased letter image _ _ _ some cased _ _ =>
      obtain ⟨first, rest, rfl⟩ := List.exists_cons_of_ne_nil some
      exact absurd (plain first List.mem_cons_self) (cased first List.mem_cons_self)

theorem eq_of_caseless_text {text low : List Char} (lowers : Lowers text low)
    (plain : ∀ letter ∈ text, caseless letter) : low = text := by
  induction lowers with
  | nil => rfl
  | fixed _ _ shorter => rw [shorter fun letter member => plain letter (List.mem_cons_of_mem _ member)]
  | cased changes _ _ _ _ => exact absurd (plain _ List.mem_cons_self) changes

/-- A text begins with a letter without case exactly where its lower case does. -/
theorem head_iff {text low : List Char} (lowers : Lowers text low) {letter : Char} (fixed : caseless letter) :
    low.head? = some letter ↔ text.head? = some letter := by
  cases lowers with
  | nil => rfl
  | fixed _ _ => rfl
  | @cased other image _ _ changes some cased _ =>
      obtain ⟨first, rest, rfl⟩ := List.exists_cons_of_ne_nil some
      refine iff_of_false ?_ ?_
      · rintro ⟨⟩
        exact cased letter List.mem_cons_self fixed
      · rintro ⟨⟩
        exact changes fixed

end Lowers

/-! ### Distribution names -/

/-- A letter of a name, as far as ASCII tells. -/
def named (letter : Char) : Prop := ¬caseless letter ∨ letter.isDigit ∨ letter ∈ ['.', '_', '-']

instance : DecidablePred named := fun letter =>
  inferInstanceAs (Decidable (¬caseless letter ∨ letter.isDigit ∨ letter ∈ ['.', '_', '-']))

/-- The distribution name a requirement begins with, and the text after it; a URL or a path has no such name. -/
def distribution (line : List Char) : List Char × List Char :=
  match line.dropWhile (named ·) with
  | [] => (line, [])
  | mark :: rest => if mark ∈ specifierMarks then (line.takeWhile (named ·), mark :: rest) else ([], line)

theorem caseless_of_not_named {letter : Char} (unnamed : ¬named letter) : caseless letter := by
  by_contra cased
  exact unnamed (Or.inl cased)

theorem named_marks : ∀ mark ∈ specifierMarks, ¬named mark := by decide

/-- A text is letters of a name, or begins with some and another letter after them. -/
theorem named_or_split (line : List Char) :
    (∀ letter ∈ line, named letter) ∨
      ∃ name mark rest, line = name ++ mark :: rest ∧ (∀ letter ∈ name, named letter) ∧ ¬named mark := by
  induction line with
  | nil => exact Or.inl fun letter member => absurd member List.not_mem_nil
  | cons first line shorter =>
      by_cases begins : named first
      · rcases shorter with all | ⟨name, mark, rest, rfl, held, ends⟩
        · exact Or.inl (List.forall_mem_cons.mpr ⟨begins, all⟩)
        · exact Or.inr ⟨first :: name, mark, rest, rfl, List.forall_mem_cons.mpr ⟨begins, held⟩, ends⟩
      · exact Or.inr ⟨[], first, line, rfl, fun letter member => absurd member List.not_mem_nil, begins⟩

theorem distribution_named {line : List Char} (held : ∀ letter ∈ line, named letter) :
    distribution line = (line, []) := by
  unfold distribution
  rw [List.dropWhile_eq_nil_iff.mpr fun letter member => decide_eq_true (held letter member)]

theorem distribution_split {name rest : List Char} {mark : Char} (held : ∀ letter ∈ name, named letter)
    (ends : ¬named mark) :
    distribution (name ++ mark :: rest) =
      if mark ∈ specifierMarks then (name, mark :: rest) else ([], name ++ mark :: rest) := by
  have kept : ∀ letter ∈ name, decide (named letter) = true :=
    fun letter member => decide_eq_true (held letter member)
  unfold distribution
  rw [List.dropWhile_append_of_pos kept, List.takeWhile_append_of_pos kept,
    List.dropWhile_cons_of_neg (by simpa using ends), List.takeWhile_cons_of_neg (by simpa using ends),
    List.append_nil]

theorem distribution_append (line : List Char) : (distribution line).1 ++ (distribution line).2 = line := by
  rcases named_or_split line with all | ⟨name, mark, rest, rfl, held, ends⟩
  · rw [distribution_named all, List.append_nil]
  · rw [distribution_split held ends]
    split
    · rfl
    · rfl

namespace Lowering

variable (lowering : Lowering)

theorem lower_nil : lowering.lower [] = [] := by
  have lowers := lowering.lowers []
  generalize lowering.lower [] = low at lowers
  cases lowers
  rfl

theorem lower_named {name : List Char} (held : ∀ letter ∈ name, named letter) :
    ∀ letter ∈ lowering.lower name, named letter :=
  (lowering.lowers name).of_kind (fun _ => Or.inl) held

/-- A text of letters of a name and one that is not have two lower cases. -/
theorem lower_ne {name text : List Char} (held : ∀ letter ∈ name, named letter) {mark : Char}
    (member : mark ∈ text) (ends : ¬named mark) : lowering.lower name ≠ lowering.lower text := by
  intro same
  have there := ((lowering.lowers text).mem_iff (caseless_of_not_named ends)).mpr member
  rw [← same] at there
  exact ends (lowering.lower_named held mark there)

/-- What is not of a name is the first such letter in lower case too. -/
theorem lower_split {name rest : List Char} {mark : Char} (held : ∀ letter ∈ name, named letter)
    (ends : ¬named mark) :
    ∃ before after, lowering.lower (name ++ mark :: rest) = before ++ mark :: after ∧
      ∀ letter ∈ before, named letter := by
  obtain ⟨before, after, lowered, begins, _⟩ :=
    (lowering.lowers (name ++ mark :: rest)).split (caseless_of_not_named ends)
  exact ⟨before, after, lowered, begins.of_kind (fun _ => Or.inl) held⟩

theorem lower_cons_mark {mark : Char} (known : mark ∈ specifierMarks) (rest : List Char) :
    lowering.lower (mark :: rest) = mark :: lowering.lower rest := by
  have alone := lowering.marks [] mark rest known
  rwa [List.nil_append, lower_nil, List.nil_append] at alone

/-- A mark ends what lower case sees. -/
theorem lower_mark {mark : Char} (known : mark ∈ specifierMarks) (name rest : List Char) :
    lowering.lower (name ++ mark :: rest) = lowering.lower name ++ lowering.lower (mark :: rest) := by
  rw [lowering.marks name mark rest known, lowering.lower_cons_mark known]

/-- A requirement is written in lower case as its name is and the text after it. -/
theorem lower_distribution (line : List Char) :
    lowering.lower line = lowering.lower (distribution line).1 ++ lowering.lower (distribution line).2 := by
  rcases named_or_split line with all | ⟨name, mark, rest, rfl, held, ends⟩
  · rw [distribution_named all, lower_nil, List.append_nil]
  · rw [distribution_split held ends]
    split
    · next known => exact lowering.lower_mark known name rest
    · rw [lower_nil, List.nil_append]

theorem opens {kind : Char → Prop} {mark : Char} {tail : List Char} (ends : ¬kind mark) :
    ∀ first rest, mark :: tail = first :: rest → ¬kind first := by
  rintro _ _ ⟨⟩
  exact ends

/-- Texts of one lower case have the same first letter that is not of a name. -/
theorem lower_eq_split {name rest text : List Char} {mark : Char} (held : ∀ letter ∈ name, named letter)
    (ends : ¬named mark) (same : lowering.lower (name ++ mark :: rest) = lowering.lower text) :
    ∃ title left, text = title ++ mark :: left ∧ ∀ letter ∈ title, named letter := by
  rcases named_or_split text with every | ⟨title, sign, left, rfl, kept, stops⟩
  · exact absurd same.symm (lowering.lower_ne every (List.mem_append_right name List.mem_cons_self) ends)
  · obtain ⟨before, after, lowered, begins⟩ := lowering.lower_split held ends
    obtain ⟨front, back, low, starts⟩ := lowering.lower_split kept stops
    have marks : mark :: after = sign :: back :=
      (front_inj begins starts (opens ends) (opens stops) (lowered.symm.trans (same.trans low))).2
    obtain ⟨rfl, _⟩ := List.cons.inj marks
    exact ⟨title, left, rfl, kept⟩

/-- Requirements of one lower case have names of one lower case, and so do the texts after them. -/
theorem lower_eq_iff (one other : List Char) :
    lowering.lower one = lowering.lower other ↔
      lowering.lower (distribution one).1 = lowering.lower (distribution other).1 ∧
        lowering.lower (distribution one).2 = lowering.lower (distribution other).2 := by
  constructor
  · intro same
    rcases named_or_split one with all | ⟨name, mark, rest, rfl, held, ends⟩
    · rcases named_or_split other with every | ⟨title, sign, left, rfl, kept, stops⟩
      · rw [distribution_named all, distribution_named every]
        exact ⟨same, rfl⟩
      · exact absurd same (lowering.lower_ne all (List.mem_append_right title List.mem_cons_self) stops)
    · obtain ⟨title, left, rfl, kept⟩ := lowering.lower_eq_split held ends same
      rw [distribution_split held ends, distribution_split kept ends]
      by_cases known : mark ∈ specifierMarks
      · rw [if_pos known, if_pos known]
        rw [lowering.lower_mark known, lowering.lower_mark known] at same
        rw [lowering.lower_cons_mark known, lowering.lower_cons_mark known] at same ⊢
        exact front_inj (lowering.lower_named held) (lowering.lower_named kept) (opens ends) (opens ends) same
      · rw [if_neg known, if_neg known]
        exact ⟨rfl, same⟩
  · rintro ⟨names, rests⟩
    rw [lower_distribution, names, rests, ← lower_distribution]

/-- Another text of the lower case of what comes after a name comes after the name as well as that does. -/
theorem distribution_other {line text : List Char}
    (same : lowering.lower text = lowering.lower (distribution line).2) (other : text ≠ (distribution line).2) :
    distribution ((distribution line).1 ++ text) = ((distribution line).1, text) := by
  rcases named_or_split line with all | ⟨name, mark, rest, rfl, held, ends⟩
  · rw [distribution_named all] at same other
    rw [lower_nil] at same
    have lowers := lowering.lowers text
    rw [same] at lowers
    exact absurd (lowers.eq_of_caseless fun letter member => absurd member List.not_mem_nil) other
  · rw [distribution_split held ends] at same other ⊢
    by_cases known : mark ∈ specifierMarks
    · rw [if_pos known] at same ⊢
      have begins : (lowering.lower text).head? = some mark := by
        rw [same, lowering.lower_cons_mark known, List.head?_cons]
      obtain ⟨left, rfl⟩ := List.head?_eq_some_iff.mp
        (((lowering.lowers text).head_iff (caseless_of_not_named ends)).mp begins)
      rw [distribution_split held ends, if_pos known]
    · rw [if_neg known] at same ⊢
      obtain ⟨title, left, rfl, kept⟩ := lowering.lower_eq_split held ends same.symm
      rw [List.nil_append, distribution_split kept ends, if_neg known]

end Lowering

/-! ### The key -/

/-- A requirement without what the key may leave out: whitespace, and the letter case of its name. -/
def form (lowering : Lowering) (line : List Char) : List Char × List Char :=
  (lowering.lower (distribution (unspaced line)).1, (distribution (unspaced line)).2)

/-- Two environments are one but for order, whitespace and the letter case of distribution names. -/
structure Alike (lowering : Lowering) (one other : Environment) : Prop where
  baseImage : one.baseImage = other.baseImage
  pythonVersion : one.pythonVersion = other.pythonVersion
  apt : one.aptArguments.Perm other.aptArguments
  pip : (one.pipArguments.map (form lowering)).Perm (other.pipArguments.map (form lowering))

/-- What comes after the name of a requirement is like nothing else in lower case. -/
def Telling (lowering : Lowering) (line : List Char) : Prop :=
  ∀ text, lowering.lower text = lowering.lower (distribution (unspaced line)).2 →
    text = (distribution (unspaced line)).2

/-- Lists are the same in order exactly where they are in some order. -/
theorem sorted_eq_iff {one other : List (List Char)} :
    one.insertionSort (· ≤ ·) = other.insertionSort (· ≤ ·) ↔ one.Perm other := by
  constructor
  · intro same
    exact (List.perm_insertionSort _ one).symm.trans (same ▸ List.perm_insertionSort _ other)
  · intro perm
    have sorts := (List.perm_insertionSort (· ≤ ·) one).trans
      (perm.trans (List.perm_insertionSort (· ≤ ·) other).symm)
    exact sorts.eq_of_pairwise' (List.pairwise_insertionSort _ _) (List.pairwise_insertionSort _ _)

theorem sortedItems_text {Number : Type} (texts : List (List Char)) :
    sortedItems (texts.map .text : List (Document Number)) = texts.map .text := by
  induction texts with
  | nil => rfl
  | cons text texts shorter => simp only [List.map_cons, sortedItems, Document.sorted, shorter]

/-- The text that the key is hashed from says which environment it is, but for what is left out of a
requirement. -/
theorem Environment.spec_eq_iff (lowering : Lowering) (one other : Environment) :
    one.spec lowering = other.spec lowering ↔
      one.baseImage = other.baseImage ∧ one.pythonVersion = other.pythonVersion ∧
        (one.requirements.map (normalise lowering)).Perm (other.requirements.map (normalise lowering)) ∧
        one.aptPackages.Perm other.aptPackages := by
  constructor
  · intro same
    have fields := canonical_inj unnumbered same
    have inOrder : ∀ first second third fourth : Document Empty,
        (Document.object [("base".toList, first), ("python".toList, second), ("pip".toList, third),
          ("apt".toList, fourth)]).sorted =
        Document.object [("apt".toList, fourth.sorted), ("base".toList, first.sorted),
          ("pip".toList, third.sorted), ("python".toList, second.sorted)] := by
      intro first second third fourth
      rfl
    rw [inOrder, inOrder] at fields
    simp only [Document.sorted, sortedItems_text, Document.object.injEq, List.cons.injEq, Prod.mk.injEq, true_and,
      Document.array.injEq, Document.text.injEq, and_true] at fields
    obtain ⟨apt, base, pip, python⟩ := fields
    have texts : Function.Injective (Document.text : List Char → Document Empty) :=
      fun _ _ equal => Document.text.inj equal
    exact ⟨base, python, sorted_eq_iff.mp (List.map_injective_iff.mpr texts pip),
      sorted_eq_iff.mp (List.map_injective_iff.mpr texts apt)⟩
  · rintro ⟨base, python, pip, apt⟩
    unfold spec
    rw [base, python, sorted_eq_iff.mpr pip, sorted_eq_iff.mpr apt]

/-! ### What is accepted -/

theorem strip_head (line : List Char) : (strip line).head? = (unspaced line).head? := by
  induction line with
  | nil => rfl
  | cons letter line shorter =>
      unfold strip lstrip unspaced
      by_cases space : letter ∈ whitespace
      · rw [List.dropWhile_cons_of_pos (by simpa using space), List.filter_cons_of_neg (by simpa using space)]
        exact shorter
      · rw [List.dropWhile_cons_of_neg (by simpa using space), List.filter_cons_of_pos (by simpa using space),
          List.reverse_cons, List.dropWhile_append, List.dropWhile_cons_of_neg (by simpa using space)]
        split
        · rfl
        · rw [List.reverse_append, List.reverse_singleton, List.singleton_append, List.head?_cons, List.head?_cons]

/-- A requirement is a flag exactly where its first letter that is not whitespace says so. -/
theorem pipFlag_iff (line : List Char) : pipFlag line ↔ (unspaced line).head? = some '-' := by
  unfold pipFlag
  rw [strip_head, decide_eq_true_iff]

theorem Environment.validate_ok (environment : Environment) :
    environment.validate = .ok () ↔
      usableName environment.name ∧ environment.baseImage ≠ [] ∧
        (∀ line ∈ environment.requirements, ¬pipFlag line) ∧
        ∀ package ∈ environment.aptPackages, aptName package := by
  unfold validate
  by_cases usable : usableName environment.name
  · rw [if_neg (by simpa using usable)]
    by_cases based : environment.baseImage = []
    · rw [if_pos based]
      exact iff_of_false (fun same => by cases same) fun ⟨_, image, _⟩ => image based
    · rw [if_neg based]
      cases flags : environment.requirements.find? pipFlag with
      | some line =>
          have flagged := List.find?_some flags
          have member := List.mem_of_find?_eq_some flags
          exact iff_of_false (fun same => by cases same) fun ⟨_, _, lines, _⟩ => lines line member flagged
      | none =>
          have unflagged := List.find?_eq_none.mp flags
          cases others : environment.aptPackages.find? fun package => !aptName package with
          | some package =>
              have other := List.find?_some others
              have member := List.mem_of_find?_eq_some others
              exact iff_of_false (fun same => by cases same) fun ⟨_, _, _, all⟩ => by
                rw [all package member] at other
                cases other
          | none =>
              have all := List.find?_eq_none.mp others
              exact iff_of_true rfl ⟨usable, based, unflagged, fun package member => by simpa using all package member⟩
  · rw [if_pos (by simpa using usable)]
    exact iff_of_false (fun same => by cases same) fun ⟨name, _⟩ => usable name

/-! ### What the key tells apart -/

theorem normalise_eq_iff (lowering : Lowering) (one other : List Char) :
    Environment.normalise lowering one = Environment.normalise lowering other ↔
      lowering.lower (distribution (unspaced one)).1 = lowering.lower (distribution (unspaced other)).1 ∧
        lowering.lower (distribution (unspaced one)).2 = lowering.lower (distribution (unspaced other)).2 :=
  lowering.lower_eq_iff _ _

theorem normalise_of_form {lowering : Lowering} {one other : List Char}
    (same : form lowering one = form lowering other) :
    Environment.normalise lowering one = Environment.normalise lowering other := by
  obtain ⟨names, rests⟩ := Prod.mk.inj same
  exact (normalise_eq_iff lowering one other).mpr ⟨names, congrArg lowering.lower rests⟩

theorem form_of_normalise {lowering : Lowering} {one other : List Char} (plain : Telling lowering one)
    (same : Environment.normalise lowering one = Environment.normalise lowering other) :
    form lowering one = form lowering other := by
  obtain ⟨names, rests⟩ := (normalise_eq_iff lowering one other).mp same
  exact Prod.ext names (plain _ rests.symm).symm

/-- Lists that are the same in some order by what one function sees are so by another that sees no more. -/
theorem perm_of_coarser {α β δ : Type} {see : α → β} {look : α → δ} {one other : List α}
    (coarser : ∀ first ∈ one, ∀ second, see first = see second → look first = look second)
    (perm : (one.map see).Perm (other.map see)) : (one.map look).Perm (other.map look) := by
  induction one generalizing other with
  | nil =>
      rw [List.map_nil, List.nil_perm, List.map_eq_nil_iff] at perm
      rw [perm]
  | cons first rest shorter =>
      have here : see first ∈ other.map see := perm.subset List.mem_cons_self
      obtain ⟨second, member, same⟩ := List.mem_map.mp here
      obtain ⟨before, after, rfl⟩ := List.append_of_mem member
      have left : (rest.map see).Perm ((before ++ after).map see) := by
        rw [List.map_append, List.map_cons, List.map_cons, same] at perm
        rw [List.map_append]
        exact (perm.trans List.perm_middle).cons_inv
      rw [List.map_append, List.map_cons, List.map_cons,
        coarser first List.mem_cons_self second same.symm]
      refine (List.Perm.cons _ ?_).trans List.perm_middle.symm
      rw [← List.map_append]
      exact shorter (fun other member => coarser other (List.mem_cons_of_mem _ member)) left

theorem Alike.pip_iff {lowering : Lowering} {one other : Environment} :
    (one.pipArguments.map (form lowering)).Perm (other.pipArguments.map (form lowering)) ↔
      (one.requirements.map (form lowering)).Perm (other.requirements.map (form lowering)) := by
  have first := (List.perm_insertionSort (· ≤ ·) one.requirements).map (form lowering)
  have second := (List.perm_insertionSort (· ≤ ·) other.requirements).map (form lowering)
  exact ⟨fun perm => first.symm.trans (perm.trans second), fun perm => first.trans (perm.trans second.symm)⟩

theorem Alike.apt_iff {one other : Environment} :
    one.aptArguments.Perm other.aptArguments ↔ one.aptPackages.Perm other.aptPackages := by
  have first := List.perm_insertionSort (· ≤ ·) one.aptPackages
  have second := List.perm_insertionSort (· ≤ ·) other.aptPackages
  exact ⟨fun perm => first.symm.trans (perm.trans second), fun perm => first.trans (perm.trans second.symm)⟩

/-- Environments that are one have one key. -/
theorem Alike.spec_eq {lowering : Lowering} {one other : Environment} (alike : Alike lowering one other) :
    one.spec lowering = other.spec lowering := by
  refine (Environment.spec_eq_iff lowering one other).mpr ⟨alike.baseImage, alike.pythonVersion, ?_,
    Alike.apt_iff.mp alike.apt⟩
  exact perm_of_coarser (fun _ _ _ => normalise_of_form) (Alike.pip_iff.mp alike.pip)

/-- Environments of one key are one, where nothing after a name has letters to tell apart. -/
theorem alike_of_telling {lowering : Lowering} {one other : Environment}
    (plain : ∀ line ∈ one.requirements, Telling lowering line) (same : one.spec lowering = other.spec lowering) :
    Alike lowering one other := by
  obtain ⟨base, python, pip, apt⟩ := (Environment.spec_eq_iff lowering one other).mp same
  refine ⟨base, python, Alike.apt_iff.mpr apt, Alike.pip_iff.mpr ?_⟩
  exact perm_of_coarser (fun line member _ => form_of_normalise (plain line member)) pip

/-- A requirement with letters to tell apart after its name stands beside another of the same key. -/
theorem exists_other {lowering : Lowering} {line : List Char} (accepted : ¬pipFlag line)
    (lettered : ¬Telling lowering line) :
    ∃ other, ¬pipFlag other ∧ Environment.normalise lowering line = Environment.normalise lowering other ∧
      form lowering line ≠ form lowering other := by
  simp only [Telling, not_forall] at lettered
  obtain ⟨text, same, differs⟩ := lettered
  have parts := lowering.distribution_other same differs
  have whole := distribution_append (unspaced line)
  rw [pipFlag_iff, ← whole] at accepted
  have clean : ∀ letter ∈ (distribution (unspaced line)).1 ++ text, letter ∉ whitespace := by
    intro letter member space
    have fixed : caseless letter := by
      unfold caseless
      rw [decide_eq_true space, Bool.true_or]
    have here : letter ∈ unspaced line := by
      rw [← whole]
      rcases List.mem_append.mp member with inside | after
      · exact List.mem_append_left _ inside
      · have low := ((lowering.lowers text).mem_iff fixed).mpr after
        rw [same] at low
        exact List.mem_append_right _ (((lowering.lowers _).mem_iff fixed).mp low)
    exact of_decide_eq_true (List.mem_filter.mp here).2 space
  have stays : unspaced ((distribution (unspaced line)).1 ++ text) = (distribution (unspaced line)).1 ++ text :=
    List.filter_eq_self.mpr fun letter member => decide_eq_true (clean letter member)
  refine ⟨(distribution (unspaced line)).1 ++ text, ?_, ?_, ?_⟩
  · rw [pipFlag_iff, stays]
    intro flag
    refine accepted ?_
    cases begins : (distribution (unspaced line)).1 with
    | cons first name =>
        rw [begins] at flag
        exact flag
    | nil =>
        rw [begins, List.nil_append] at flag
        have dash : caseless '-' := by decide
        rw [List.nil_append, ← (lowering.lowers _).head_iff dash, ← same]
        exact ((lowering.lowers text).head_iff dash).mpr flag
  · rw [normalise_eq_iff, stays, parts]
    exact ⟨rfl, same.symm⟩
  · intro equal
    unfold form at equal
    rw [stays, parts] at equal
    exact differs (Prod.mk.inj equal).2.symm

/-- The key of an environment tells it from every other that is not the same, exactly where none of its
requirements has letters to tell apart after the name; environments that are the same always have one key. -/
theorem Environment.key_sound_iff (lowering : Lowering) (environment : Environment)
    (accepted : environment.validate = .ok ()) :
    (∀ other : Environment, other.validate = .ok () →
        (environment.spec lowering = other.spec lowering → Alike lowering environment other) ∧
          (Alike lowering environment other → ∀ hash, environment.digest hash lowering = other.digest hash lowering)) ↔
      ∀ line ∈ environment.requirements, Telling lowering line := by
  constructor
  · intro sound line member
    by_contra lettered
    obtain ⟨name, image, unflagged, packages⟩ := environment.validate_ok.mp accepted
    obtain ⟨other, fine, same, differs⟩ := exists_other (unflagged line member) lettered
    obtain ⟨before, after, split⟩ := List.append_of_mem member
    let changed := { environment with requirements := before ++ other :: after }
    have valid : changed.validate = .ok () := by
      refine changed.validate_ok.mpr ⟨name, image, fun each there => ?_, packages⟩
      rcases List.mem_append.mp there with front | rest
      · exact unflagged each (split ▸ List.mem_append_left _ front)
      · rcases List.mem_cons.mp rest with rfl | back
        · exact fine
        · exact unflagged each (split ▸ List.mem_append_right _ (List.mem_cons_of_mem _ back))
    have keys : environment.spec lowering = changed.spec lowering := by
      refine (spec_eq_iff lowering environment changed).mpr ⟨rfl, rfl, ?_, List.Perm.refl _⟩
      show (environment.requirements.map _).Perm ((before ++ other :: after).map _)
      rw [split, List.map_append, List.map_append, List.map_cons, List.map_cons, same]
    have forms := Alike.pip_iff.mp ((sound changed valid).1 keys).pip
    change (environment.requirements.map _).Perm ((before ++ other :: after).map _) at forms
    rw [split, List.map_append, List.map_append, List.map_cons, List.map_cons, List.perm_append_left_iff] at forms
    have heads : form lowering line ::ₘ (after.map (form lowering) : Multiset _) =
        form lowering other ::ₘ (after.map (form lowering) : Multiset _) := Multiset.coe_eq_coe.mpr forms
    exact differs ((Multiset.cons_inj_left _).mp heads)
  · intro plain other _
    refine ⟨alike_of_telling plain, fun alike hash => ?_⟩
    unfold digest
    rw [alike.spec_eq]

/-! ### Letters of ASCII -/

theorem of_ascii (kind : Char → Prop) (all : ∀ code : Fin 128, kind (Char.ofNat code)) {letter : Char}
    (small : letter.toNat < 128) : kind letter := by
  have here := all ⟨letter.toNat, small⟩
  rwa [Char.ofNat_toNat] at here

theorem toLower_of_large {letter : Char} (large : ¬letter.toNat < 128) : letter.toLower = letter := by
  unfold Char.toLower
  rw [dif_neg]
  rintro ⟨_, least⟩
  exact large (Nat.lt_of_le_of_lt (UInt32.le_iff_toNat_le.mp least) (by decide))

theorem toLower_toLower (letter : Char) : letter.toLower.toLower = letter.toLower := by
  by_cases small : letter.toNat < 128
  · exact of_ascii (fun letter => letter.toLower.toLower = letter.toLower) (by decide) small
  · rw [toLower_of_large small, toLower_of_large small]

theorem caseless_toLower {letter : Char} (fixed : caseless letter) : letter.toLower = letter := by
  by_cases small : letter.toNat < 128
  · exact of_ascii (fun letter => caseless letter → letter.toLower = letter) (by decide) small fixed
  · exact toLower_of_large small

theorem cased_toLower {letter : Char} (cased : ¬caseless letter) : ¬caseless letter.toLower := by
  by_cases small : letter.toNat < 128
  · exact of_ascii (fun letter => ¬caseless letter → ¬caseless letter.toLower) (by decide) small cased
  · rwa [toLower_of_large small]

/-- A letter of ASCII is written in two ways. -/
theorem exists_turned {letter : Char} (small : letter.toNat < 128) (alpha : letter.isAlpha) :
    ∃ other, other ≠ letter ∧ other.toLower = letter.toLower := by
  have turned : letter.isAlpha → letter.toLower ≠ letter ∨ letter.toUpper ≠ letter ∧
      letter.toUpper.toLower = letter.toLower :=
    of_ascii (fun letter => letter.isAlpha → letter.toLower ≠ letter ∨ letter.toUpper ≠ letter ∧
      letter.toUpper.toLower = letter.toLower) (by decide) small
  rcases turned alpha with low | ⟨high, same⟩
  · exact ⟨_, low, toLower_toLower letter⟩
  · exact ⟨_, high, same⟩

/-- Lower case of ASCII; other letters are left as they are. -/
def Lowering.ofAscii : Lowering where
  lower := List.map Char.toLower
  lowers := by
    intro text
    induction text with
    | nil => exact Lowers.nil
    | cons letter text shorter =>
        rw [List.map_cons]
        by_cases fixed : caseless letter
        · rw [caseless_toLower fixed]
          exact Lowers.fixed fixed shorter
        · exact Lowers.cased fixed (List.cons_ne_nil _ [])
            (fun each only => List.mem_singleton.mp only ▸ cased_toLower fixed) shorter
  marks := by
    intro front mark back known
    rw [List.map_append, List.map_cons, caseless_toLower (caseless_of_not_named (named_marks mark known))]
  ascii := by
    intro front letter back
    rw [List.map_append, List.map_append, List.map_cons, List.map_cons, toLower_toLower]

/-- What comes after a name has no letters to tell apart, in ASCII, exactly where it has no letters. -/
theorem telling_iff_ascii (lowering : Lowering) {line : List Char}
    (ascii : ∀ letter ∈ (distribution (unspaced line)).2, letter.toNat < 128) :
    Telling lowering line ↔ ∀ letter ∈ (distribution (unspaced line)).2, ¬letter.isAlpha := by
  unfold Telling
  generalize (distribution (unspaced line)).2 = rest at ascii ⊢
  constructor
  · intro plain letter member alpha
    obtain ⟨front, back, rfl⟩ := List.append_of_mem member
    obtain ⟨other, differs, same⟩ := exists_turned (ascii letter member) alpha
    have text := plain (front ++ other :: back) (by rw [lowering.ascii, lowering.ascii front letter, same])
    exact differs (List.cons.inj (List.append_cancel_left text)).1
  · intro plain text same
    have fixed : ∀ letter ∈ rest, caseless letter := by
      intro letter member
      unfold caseless
      rw [Bool.or_eq_true, Bool.and_eq_true]
      exact Or.inr ⟨decide_eq_true (ascii letter member), by simpa using plain letter member⟩
    have stays := (lowering.lowers rest).eq_of_caseless_text fixed
    rw [stays] at same
    have lowers := lowering.lowers text
    rw [same] at lowers
    exact lowers.eq_of_caseless fixed

/-- An environment of one requirement, and no more than has to be said. -/
def Environment.ofRequirement (requirement : String) : Environment :=
  { name := "torch".toList, baseImage := "base".toList, pythonVersion := [], requirements := [requirement.toList],
    aptPackages := [], owner := [], description := [], createdAt := none, updatedAt := none }

/-- A version of a package has a key of its own. -/
theorem key_of_a_version :
    (Environment.ofRequirement "Torch == 2.3.0").validate = .ok () ∧
      ∀ other : Environment, other.validate = .ok () →
        ((Environment.ofRequirement "Torch == 2.3.0").spec Lowering.ofAscii = other.spec Lowering.ofAscii →
            Alike Lowering.ofAscii (Environment.ofRequirement "Torch == 2.3.0") other) ∧
          (Alike Lowering.ofAscii (Environment.ofRequirement "Torch == 2.3.0") other → ∀ hash,
            (Environment.ofRequirement "Torch == 2.3.0").digest hash Lowering.ofAscii =
              other.digest hash Lowering.ofAscii) := by
  have accepted : (Environment.ofRequirement "Torch == 2.3.0").validate = .ok () :=
    (Environment.validate_ok _).mpr ⟨by decide, by decide, by decide, by decide⟩
  refine ⟨accepted, (Environment.key_sound_iff Lowering.ofAscii _ accepted).mpr fun line member => ?_⟩
  rw [List.mem_singleton.mp member]
  exact (telling_iff_ascii _ (by decide)).mpr (by decide)

/-- Two packages at URLs that differ in the case of a letter have one key. -/
theorem key_of_two_urls :
    ¬∀ (lowering : Lowering) (one other : Environment), one.validate = .ok () → other.validate = .ok () →
      (one.spec lowering = other.spec lowering → Alike lowering one other) ∧
        (Alike lowering one other → ∀ hash, one.digest hash lowering = other.digest hash lowering) := by
  intro sound
  have first : (Environment.ofRequirement "torch @ https://wheels/A.whl").validate = .ok () :=
    (Environment.validate_ok _).mpr ⟨by decide, by decide, by decide, by decide⟩
  have second : (Environment.ofRequirement "torch @ https://wheels/a.whl").validate = .ok () :=
    (Environment.validate_ok _).mpr ⟨by decide, by decide, by decide, by decide⟩
  have keys := (sound Lowering.ofAscii _ _ first second).1 ((Environment.spec_eq_iff _ _ _).mpr
    ⟨rfl, rfl, by decide, List.Perm.refl _⟩)
  have forms := Alike.pip_iff.mp keys.pip
  revert forms
  decide

/-! ### What the store returns -/

theorem readLines_kept (text : List Char) : ∀ line ∈ readLines text, OneLine line ∧ strip line ≠ [] := by
  intro line member
  obtain ⟨piece, some⟩ := List.mem_filter.mp member
  exact ⟨pieces_oneLine text line piece, of_decide_eq_true some⟩

/-- Lines that the store returns are those it was given. -/
theorem readLines_lineText {lines : List (List Char)} (kept : ∀ line ∈ lines, OneLine line ∧ strip line ≠ []) :
    readLines (lineText lines) = lines := by
  have split : pieces (lineText lines) = lines := by
    induction lines with
    | nil => rfl
    | cons line lines shorter =>
        obtain ⟨plain, some⟩ := kept line List.mem_cons_self
        have written : line ≠ [] := by
          rintro rfl
          exact some rfl
        cases lines with
        | nil =>
            show pieces (['\n'].intercalate [line]) = [line]
            rw [List.intercalate_singleton, pieces_whole plain written]
        | cons next lines =>
            have rest := shorter fun other member => kept other (List.mem_cons_of_mem _ member)
            show pieces (['\n'].intercalate (line :: next :: lines)) = _
            rw [List.intercalate_cons_cons, List.append_assoc, List.singleton_append, pieces_line plain]
            exact congrArg _ rest
  unfold readLines
  rw [split]
  exact List.filter_eq_self.mpr fun line member => decide_eq_true (kept line member).2

/-- The store returns the lines it was given exactly where they are lines for Python, and say something. -/
theorem readLines_lineText_iff (lines : List (List Char)) :
    readLines (lineText lines) = lines ↔ ∀ line ∈ lines, OneLine line ∧ strip line ≠ [] := by
  constructor
  · intro same line member
    exact readLines_kept (lineText lines) line (same.symm ▸ member)
  · exact readLines_lineText

theorem lineBreaks_space : ∀ letter ∈ lineBreaks, letter ∈ whitespace := by decide

theorem apt_unspaced (letter : Char) (known : lowAlphanumeric letter ∨ letter ∈ ['+', '.', ':', '-']) :
    letter ∉ whitespace := by
  intro space
  have none : ∀ space ∈ whitespace, ¬(lowAlphanumeric space ∨ space ∈ ['+', '.', ':', '-']) := by decide
  exact none letter space known

/-- The name of a package is a line that says something, where no newline ends it. -/
theorem aptName_kept {package : List Char} (accepted : aptName package) :
    (OneLine package ∧ strip package ≠ []) ↔ '\n' ∉ package := by
  constructor
  · rintro ⟨plain, _⟩ newline
    exact plain _ newline (by decide)
  · intro unbroken
    have whole : chomped package = package := by
      refine if_neg fun last => unbroken (List.mem_of_getLast? last)
    unfold aptName at accepted
    rw [whole, Bool.and_eq_true, List.all_eq_true] at accepted
    obtain ⟨begins, letters⟩ := accepted
    have fine : ∀ letter ∈ package, letter ∉ whitespace := by
      intro letter member
      have known := letters letter member
      rw [Bool.or_eq_true, decide_eq_true_iff] at known
      exact apt_unspaced letter known
    refine ⟨fun letter member broken => fine letter member (lineBreaks_space letter broken), fun blank => ?_⟩
    have same : unspaced package = package :=
      List.filter_eq_self.mpr fun letter member => decide_eq_true (fine letter member)
    have head := strip_head package
    rw [blank, same] at head
    rw [← head] at begins
    cases begins

/-- What is found under a name after an environment is saved under it. -/
theorem EnvironmentRows.environment_saved (rows : EnvironmentRows) (hash : List Char → List Char)
    (lowering : Lowering) (environment : Environment) (now : Time) :
    ∃ found : Environment,
      (rows.saveEnvironment hash lowering environment now).1.environment environment.name = some found ∧
        found.name = environment.name ∧ found.baseImage = environment.baseImage ∧
        found.pythonVersion = environment.pythonVersion ∧
        found.requirements = readLines (lineText environment.requirements) ∧
        found.aptPackages = readLines (lineText environment.aptPackages) := by
  unfold saveEnvironment EnvironmentRows.environment
  cases old : rows.find environment.name with
  | none =>
      have fresh : rows.find (environment.row hash lowering now).name = none := old
      obtain ⟨grown, inserted⟩ := Table.insert_of_fresh fresh
      simp only [inserted, Option.getD_some]
      have same : environment.name = (environment.row hash lowering now).name := rfl
      rw [Table.find_insert inserted, if_pos same]
      exact ⟨_, rfl, rfl, rfl, rfl, rfl, rfl⟩
  | some row =>
      have taken : rows.insert (environment.row hash lowering now) = none := by
        cases inserted : rows.insert (environment.row hash lowering now) with
        | none => rfl
        | some grown =>
            have free := (Table.insert_eq_some inserted).1
            rw [show rows.find (environment.row hash lowering now).name = _ from old] at free
            cases free
      have name : row.name = environment.name := Table.find_key old
      simp only [taken, Option.getD_none]
      rw [Table.find_modify_found old, if_pos rfl]
      exact ⟨_, rfl, name, rfl, rfl, rfl, rfl⟩

/-- What the store returns of an environment that is saved is what was saved. -/
def EnvironmentRows.Returns (rows : EnvironmentRows) (hash : List Char → List Char) (lowering : Lowering)
    (environment : Environment) (now : Time) : Prop :=
  ∃ found : Environment,
    (rows.saveEnvironment hash lowering environment now).1.environment environment.name = some found ∧
      found.baseImage = environment.baseImage ∧ found.pythonVersion = environment.pythonVersion ∧
      found.requirements = environment.requirements ∧ found.aptPackages = environment.aptPackages ∧
      found.digest hash lowering = environment.digest hash lowering ∧ found.validate = .ok ()

/-- The lines that come back are those that were given. -/
theorem EnvironmentRows.Returns.lines {rows : EnvironmentRows} {hash : List Char → List Char} {lowering : Lowering}
    {environment : Environment} {now : Time} (returns : rows.Returns hash lowering environment now) :
    readLines (lineText environment.requirements) = environment.requirements ∧
      readLines (lineText environment.aptPackages) = environment.aptPackages := by
  obtain ⟨found, here, _, _, _, requirements, packages⟩ := rows.environment_saved hash lowering environment now
  obtain ⟨other, there, _, _, lines, names, _⟩ := returns
  rw [here, Option.some.injEq] at there
  subst there
  exact ⟨requirements.symm.trans lines, packages.symm.trans names⟩

/-- An environment of lines comes back as it was. -/
theorem EnvironmentRows.returns_of_lines (rows : EnvironmentRows) (hash : List Char → List Char)
    (lowering : Lowering) {environment : Environment} (now : Time) (accepted : environment.validate = .ok ())
    (lines : readLines (lineText environment.requirements) = environment.requirements)
    (names : readLines (lineText environment.aptPackages) = environment.aptPackages) :
    rows.Returns hash lowering environment now := by
  obtain ⟨found, here, name, base, python, requirements, packages⟩ :=
    rows.environment_saved hash lowering environment now
  rw [lines] at requirements
  rw [names] at packages
  refine ⟨found, here, base, python, requirements, packages, ?_, ?_⟩
  · unfold Environment.digest Environment.spec
    rw [base, python, requirements, packages]
  · rw [Environment.validate_ok, name, base, requirements, packages]
    exact environment.validate_ok.mp accepted

/-- An environment that is accepted comes back from the store as it was, exactly where each of its requirements
is a line for Python that says something, and no name of a package ends in a newline. -/
theorem EnvironmentRows.returns_iff (rows : EnvironmentRows) (hash : List Char → List Char) (lowering : Lowering)
    (environment : Environment) (now : Time) (accepted : environment.validate = .ok ()) :
    rows.Returns hash lowering environment now ↔
      (∀ line ∈ environment.requirements, OneLine line ∧ strip line ≠ []) ∧
        ∀ package ∈ environment.aptPackages, '\n' ∉ package := by
  obtain ⟨_, _, _, apt⟩ := environment.validate_ok.mp accepted
  constructor
  · intro returns
    obtain ⟨lines, names⟩ := returns.lines
    refine ⟨(readLines_lineText_iff _).mp lines, fun package member => ?_⟩
    exact (aptName_kept (apt package member)).mp ((readLines_lineText_iff _).mp names package member)
  · rintro ⟨lines, names⟩
    exact rows.returns_of_lines hash lowering now accepted (readLines_lineText lines)
      (readLines_lineText fun package member => (aptName_kept (apt package member)).mpr (names package member))

theorem torch_returned :
    EnvironmentRows.Returns Table.empty id Lowering.ofAscii (Environment.ofRequirement "torch == 2.3.0") 0 :=
  (EnvironmentRows.returns_iff Table.empty id Lowering.ofAscii (Environment.ofRequirement "torch == 2.3.0") 0
    ((Environment.validate_ok _).mpr ⟨by decide, by decide, by decide, by decide⟩)).mpr ⟨by decide, by decide⟩

/-- A requirement of two lines comes back as two. -/
theorem two_lines_returned :
    ¬∀ (rows : EnvironmentRows) (hash : List Char → List Char) (lowering : Lowering) (environment : Environment)
      (now : Time), environment.validate = .ok () → rows.Returns hash lowering environment now := by
  intro returns
  have accepted : (Environment.ofRequirement "torch\nnumpy").validate = .ok () :=
    (Environment.validate_ok _).mpr ⟨by decide, by decide, by decide, by decide⟩
  exact absurd (returns Table.empty id Lowering.ofAscii _ 0 accepted).lines.1 (by decide)

/-! ### From a text of requirements -/

/-- The requirements of a text: what stands before a comment, where that says something. -/
def requirementsOf (text : List Char) : List (List Char) :=
  ((pieces text).map fun line => strip (line.takeWhile (· ≠ '#'))).filter (· ≠ [])

/-- An environment from a text of requirements, where it is accepted. -/
def fromRequirements (text : List Char) (environment : Environment) : Except EnvironmentError Environment :=
  let written := { environment with requirements := requirementsOf text }
  match written.validate with
  | .ok () => .ok written
  | .error error => .error error

theorem strip_sublist (text : List Char) : (strip text).Sublist text := by
  have inner : (strip text).Sublist (lstrip text).reverse.reverse := (List.dropWhile_sublist _).reverse
  rw [List.reverse_reverse] at inner
  exact inner.trans (List.dropWhile_sublist _)

/-- What is left of a text says something, where anything is left. -/
theorem strip_strip_ne {text : List Char} (some : strip text ≠ []) : strip (strip text) ≠ [] := by
  have head := strip_head text
  obtain ⟨first, rest, begins⟩ := List.exists_cons_of_ne_nil some
  rw [begins, List.head?_cons] at head
  have plain : first ∉ whitespace := of_decide_eq_true (List.mem_filter.mp (List.mem_of_head? head.symm)).2
  have again := strip_head (first :: rest)
  unfold unspaced at again
  rw [List.filter_cons_of_pos (by simpa using plain), List.head?_cons] at again
  rw [begins]
  intro none
  rw [none] at again
  cases again

theorem requirementsOf_kept (text : List Char) : ∀ line ∈ requirementsOf text, OneLine line ∧ strip line ≠ [] := by
  intro line member
  obtain ⟨made, some⟩ := List.mem_filter.mp member
  obtain ⟨piece, there, rfl⟩ := List.mem_map.mp made
  refine ⟨fun letter inside => ?_, strip_strip_ne (of_decide_eq_true some)⟩
  have front := (strip_sublist _).subset inside
  exact pieces_oneLine text piece there letter ((List.takeWhile_sublist _).subset front)

/-- An environment from a text of requirements comes back from the store, where it asks for no package of apt. -/
theorem fromRequirements_returned (rows : EnvironmentRows) (hash : List Char → List Char) (lowering : Lowering)
    {text : List Char} {given environment : Environment} (now : Time) (plain : given.aptPackages = [])
    (made : fromRequirements text given = .ok environment) : rows.Returns hash lowering environment now := by
  unfold fromRequirements at made
  simp only at made
  split at made
  · next accepted =>
      cases made
      refine rows.returns_of_lines hash lowering now accepted (readLines_lineText (requirementsOf_kept text)) ?_
      show readLines (lineText given.aptPackages) = given.aptPackages
      rw [plain]
      rfl
  · cases made

/-- A file of two requirements and comments comes back as two. -/
theorem file_returned :
    EnvironmentRows.Returns Table.empty id Lowering.ofAscii
      { Environment.ofRequirement "" with requirements := ["torch == 2.3.0".toList, "numpy".toList] } 0 := by
  have read : requirementsOf "# deps\ntorch == 2.3.0  # pinned\n\nnumpy\n".toList =
      ["torch == 2.3.0".toList, "numpy".toList] := by decide
  refine fromRequirements_returned Table.empty id Lowering.ofAscii 0 (rfl : (Environment.ofRequirement "").aptPackages = [])
    (?_ : fromRequirements "# deps\ntorch == 2.3.0  # pinned\n\nnumpy\n".toList (Environment.ofRequirement "") = _)
  have accepted : { Environment.ofRequirement "" with
      requirements := ["torch == 2.3.0".toList, "numpy".toList] }.validate = .ok () :=
    (Environment.validate_ok _).mpr ⟨by decide, by decide, by decide, by decide⟩
  unfold fromRequirements
  rw [read]
  simp only [accepted]

end GpuBroker.Broker
