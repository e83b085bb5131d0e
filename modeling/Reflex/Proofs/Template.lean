import Mathlib.Data.List.Basic
import Reflex.Catalog

/-!
# How Templates Are Filled

A template is made of texts without an opening brace, of placeholders whose names have no closing
brace, and perhaps of a brace at the end that is opened and not closed. There is one way to take it
apart. It can be filled exactly if every brace is closed and every placeholder has a value that is
not blank, and then each placeholder is replaced by its value. What is put in is not read again.

## Main definitions

- `Template.Parts`, `Template.Parts.toList`: the parts of a template, and the template that they
  make.
- `Template.Parts.Fillable`, `Template.Parts.filled`: when they can be filled, and with which
  result.
- `Template.rounds`: filling in rounds, one for every placeholder.

## Main statements

- `Template.existsUnique_parts`: every template has its parts.
- `Template.fillFrom_toList_eq_some_iff`: when parts are filled, and with which result.
- `Template.rounds_toList`: filling in rounds comes to an end with this result.
- `Template.summarize_exact`: all of it together.
- `Template.isBlank_of_fill`: a filled template is blank exactly if the template is.
-/

namespace Reflex.Template

/-- The parts of a template. -/
structure Parts where
  /-- The placeholders by name, each with the text before it. -/
  holes : List (List Char × List Char)
  /-- The text after the last placeholder, up to a brace that is opened and not closed. -/
  last : List Char
  /-- What follows this brace, if there is one. -/
  unclosed : Option (List Char)

namespace Parts

/-- What stands for a placeholder, together with the text before it. -/
def ofHole (hole : List Char × List Char) : List Char :=
  hole.1 ++ '\x7b' :: hole.2 ++ ['\x7d']

/-- The template of the parts. -/
def toList (p : Parts) : List Char :=
  p.holes.flatMap ofHole ++ p.last ++ (p.unclosed.map ('\x7b' :: ·)).getD []

/-- Texts have no opening brace, and names no closing one; nor has what follows the brace that is
not closed. -/
structure WellFormed (p : Parts) : Prop where
  /-- There is no opening brace before a placeholder. -/
  texts : ∀ hole ∈ p.holes, '\x7b' ∉ hole.1
  /-- There is no closing brace in a name. -/
  names : ∀ hole ∈ p.holes, '\x7d' ∉ hole.2
  /-- There is no opening brace after the last placeholder. -/
  last : '\x7b' ∉ p.last
  /-- A brace that is not closed is not closed. -/
  unclosed : ∀ rest, p.unclosed = some rest → '\x7d' ∉ rest

end Parts

/-! ## Cutting a text -/

/-- The text before the first occurrence of a character, and what follows it, if it occurs. -/
def cut (c : Char) : List Char → List Char × Option (List Char)
  | [] => ([], none)
  | d :: rest => if d = c then ([], some rest) else (d :: (cut c rest).1, (cut c rest).2)

theorem cut_of_notMem {c : Char} {s : List Char} (h : c ∉ s) : cut c s = (s, none) := by
  induction s with
  | nil => rfl
  | cons d s ih =>
    rw [List.mem_cons, not_or] at h
    rw [cut, if_neg (Ne.symm h.1), ih h.2]

theorem cut_append {c : Char} {s : List Char} (h : c ∉ s) (rest : List Char) :
    cut c (s ++ c :: rest) = (s, some rest) := by
  induction s with
  | nil => simp [cut]
  | cons d s ih =>
    rw [List.mem_cons, not_or] at h
    rw [List.cons_append, cut, if_neg (Ne.symm h.1), ih h.2]

namespace Parts

variable {holes : List (List Char × List Char)} {hole : List Char × List Char}
  {last : List Char} {unclosed : Option (List Char)} {p q : Parts}

theorem toList_nil : toList ⟨[], last, unclosed⟩ = last ++ (unclosed.map ('\x7b' :: ·)).getD [] :=
  rfl

theorem toList_cons : toList ⟨hole :: holes, last, unclosed⟩ =
    hole.1 ++ '\x7b' :: (hole.2 ++ '\x7d' :: toList ⟨holes, last, unclosed⟩) := by
  simp [toList, ofHole]

theorem wellFormed_cons : WellFormed ⟨hole :: holes, last, unclosed⟩ ↔
    '\x7b' ∉ hole.1 ∧ '\x7d' ∉ hole.2 ∧ WellFormed ⟨holes, last, unclosed⟩ := by
  constructor
  · intro h
    exact ⟨h.texts hole (by simp), h.names hole (by simp), fun x hx => h.texts x (by simp [hx]),
      fun x hx => h.names x (by simp [hx]), h.last, h.unclosed⟩
  · rintro ⟨htext, hname, h⟩
    refine ⟨fun x hx => ?_, fun x hx => ?_, h.last, h.unclosed⟩
    · rcases List.mem_cons.1 hx with rfl | hx
      · exact htext
      · exact h.texts x hx
    · rcases List.mem_cons.1 hx with rfl | hx
      · exact hname
      · exact h.names x hx

/-- Before the first opening brace of parts without placeholders stands their text. -/
theorem cut_toList_nil (h : WellFormed ⟨[], last, unclosed⟩) :
    cut '\x7b' (toList ⟨[], last, unclosed⟩) = (last, unclosed) := by
  rw [toList_nil]
  cases unclosed with
  | none =>
    rw [Option.map_none, Option.getD_none, List.append_nil]
    exact cut_of_notMem h.last
  | some rest => exact cut_append h.last rest

/-- The first opening brace belongs to the first placeholder. -/
theorem cut_toList_cons (h : WellFormed ⟨hole :: holes, last, unclosed⟩) :
    cut '\x7b' (toList ⟨hole :: holes, last, unclosed⟩) =
      (hole.1, some (hole.2 ++ '\x7d' :: toList ⟨holes, last, unclosed⟩)) := by
  rw [toList_cons]
  exact cut_append (wellFormed_cons.1 h).1 _

/-- Parts are determined by their template: the first opening brace and the first closing brace
after it tell the first placeholder. -/
theorem WellFormed.eq_of_toList (hp : p.WellFormed) (hq : q.WellFormed)
    (h : p.toList = q.toList) : p = q := by
  obtain ⟨holes, last, unclosed⟩ := p
  obtain ⟨holes', last', unclosed'⟩ := q
  have hcut := congrArg (cut '\x7b') h
  induction holes generalizing holes' with
  | nil =>
    rw [cut_toList_nil hp] at hcut
    cases holes' with
    | nil =>
      rw [cut_toList_nil hq, Prod.mk.injEq] at hcut
      rw [hcut.1, hcut.2]
    | cons hole' holes' =>
      rw [cut_toList_cons hq, Prod.mk.injEq] at hcut
      exact absurd (by simp) (hp.unclosed _ hcut.2)
  | cons hole holes ih =>
    rw [cut_toList_cons hp] at hcut
    cases holes' with
    | nil =>
      rw [cut_toList_nil hq, Prod.mk.injEq] at hcut
      exact absurd (by simp) (hq.unclosed _ hcut.2.symm)
    | cons hole' holes' =>
      rw [cut_toList_cons hq, Prod.mk.injEq, Option.some_inj] at hcut
      obtain ⟨-, hname, hp⟩ := wellFormed_cons.1 hp
      obtain ⟨-, hname', hq⟩ := wellFormed_cons.1 hq
      have hrest := congrArg (cut '\x7d') hcut.2
      rw [cut_append hname, cut_append hname', Prod.mk.injEq, Option.some_inj] at hrest
      obtain ⟨rfl, rfl, rfl⟩ := mk.inj (ih hp holes' hq hrest.2 (congrArg _ hrest.2))
      rw [Prod.ext hcut.1 hrest.1]

end Parts

/-- Every template has parts. The recursion is on what follows the first placeholder. -/
theorem exists_parts (template : List Char) :
    ∃ p : Parts, p.WellFormed ∧ p.toList = template := by
  by_cases hopen : '\x7b' ∈ template
  · obtain ⟨text, tail, htemplate, htext⟩ := List.eq_append_cons_of_mem hopen
    by_cases hclose : '\x7d' ∈ tail
    · obtain ⟨name, rest, htail, hname⟩ := List.eq_append_cons_of_mem hclose
      obtain ⟨p, hp, hrest⟩ := exists_parts rest
      refine ⟨⟨(text, name) :: p.holes, p.last, p.unclosed⟩,
        Parts.wellFormed_cons.2 ⟨htext, hname, hp⟩, ?_⟩
      rw [Parts.toList_cons, hrest, htemplate, htail]
    · refine ⟨⟨[], text, some tail⟩, ⟨by simp, by simp, htext, ?_⟩, htemplate.symm⟩
      intro rest hrest
      rwa [← Option.some.inj hrest]
  · refine ⟨⟨[], template, none⟩, ⟨by simp, by simp, hopen, ?_⟩, ?_⟩
    · rintro _ ⟨⟩
    · rw [Parts.toList_nil]
      simp
termination_by template.length
decreasing_by
  rw [htemplate, htail]
  simp
  omega

/-- There is one way to take a template apart. -/
theorem existsUnique_parts (template : List Char) :
    ∃! p : Parts, p.WellFormed ∧ p.toList = template := by
  obtain ⟨p, hp, htemplate⟩ := exists_parts template
  refine ⟨p, ⟨hp, htemplate⟩, fun q ⟨hq, hqtemplate⟩ => ?_⟩
  exact hq.eq_of_toList hp (hqtemplate.trans htemplate.symm)

/-! ## Filling -/

section Fill

variable {values : Dict Value} {text name rest out : List Char} {hole : List Char × List Char}
  {p : Parts}

/-- A value is put in if it is there and is not blank. -/
theorem rendering?_eq_some_iff {shown : List Char} : rendering? values name = some shown ↔
    ∃ v, values.get? (String.ofList name) = some v ∧ Text.isBlank v.display = false ∧
      shown = v.display.toList := by
  cases hvalue : values.get? (String.ofList name) with
  | none => simp [rendering?, hvalue]
  | some v =>
    have hrendering : rendering? values name =
        if Text.isBlank v.display then none else some v.display.toList := by
      rw [rendering?, hvalue]
      rfl
    rw [hrendering]
    cases hblank : Text.isBlank v.display with
    | true => simp [hblank]
    | false =>
      rw [if_neg Bool.false_ne_true, Option.some_inj]
      refine ⟨fun h => ⟨v, rfl, hblank, h.symm⟩, ?_⟩
      rintro ⟨_, ⟨⟩, -, rfl⟩
      rfl

/-- Text before a brace is copied. -/
theorem fillFrom_text (htext : '\x7b' ∉ text) (rest : List Char) :
    fillFrom values none (text ++ rest) = (fillFrom values none rest).map (text ++ ·) := by
  induction text with
  | nil => simp
  | cons c text ih =>
    rw [List.mem_cons, not_or] at htext
    rw [List.cons_append, fillFrom, if_neg (Ne.symm htext.1), ih htext.2, Option.map_map]
    rfl

/-- A name is gathered up to the closing brace, and replaced by its value. -/
theorem fillFrom_name (hname : '\x7d' ∉ name) (gathered rest : List Char) :
    fillFrom values (some gathered) (name ++ '\x7d' :: rest) =
      (rendering? values (gathered.reverse ++ name)).bind fun shown =>
        (fillFrom values none rest).map (shown ++ ·) := by
  induction name generalizing gathered with
  | nil =>
    rw [List.nil_append, List.append_nil, fillFrom, if_pos rfl]
    cases rendering? values gathered.reverse <;> cases fillFrom values none rest <;> rfl
  | cons c name ih =>
    rw [List.mem_cons, not_or] at hname
    rw [List.cons_append, fillFrom, if_neg (Ne.symm hname.1), ih hname.2, List.reverse_cons,
      List.append_assoc, List.singleton_append]

/-- There is no result when a brace is not closed. -/
theorem fillFrom_unclosed (hrest : '\x7d' ∉ rest) (gathered : List Char) :
    fillFrom values (some gathered) rest = none := by
  induction rest generalizing gathered with
  | nil => rfl
  | cons c rest ih =>
    rw [List.mem_cons, not_or] at hrest
    rw [fillFrom, if_neg (Ne.symm hrest.1), ih hrest.2]

namespace Parts

variable {holes : List (List Char × List Char)} {last : List Char} {unclosed : Option (List Char)}

/-- Every brace is closed, and every placeholder has a value that is not blank. -/
structure Fillable (p : Parts) (values : Dict Value) : Prop where
  /-- There is no brace that is not closed. -/
  closed : p.unclosed = none
  /-- Every name has a value that is not blank. -/
  named : ∀ hole ∈ p.holes, ∃ v, values.get? (String.ofList hole.2) = some v ∧
    Text.isBlank v.display = false

/-- The text of a placeholder together with the text before it, with its value put in. -/
def fillHole (values : Dict Value) (hole : List Char × List Char) : List Char :=
  hole.1 ++ ((values.get? (String.ofList hole.2)).map (·.display.toList)).getD []

/-- The texts of the parts, with values in place of the placeholders. -/
def filled (p : Parts) (values : Dict Value) : List Char :=
  p.holes.flatMap (fillHole values) ++ p.last

/-- A template without placeholders is its own text, unless a brace is not closed. -/
theorem fillFrom_toList_nil (h : WellFormed ⟨[], last, unclosed⟩) :
    fillFrom values none (toList ⟨[], last, unclosed⟩) =
      if unclosed = none then some last else none := by
  rw [toList_nil, fillFrom_text h.last]
  cases unclosed with
  | none => simp [fillFrom]
  | some rest =>
    show ((fillFrom values none ('\x7b' :: rest)).map (last ++ ·)) = none
    rw [fillFrom, if_pos rfl, fillFrom_unclosed (h.unclosed rest rfl), Option.map_none]

/-- The first placeholder is replaced by its value. -/
theorem fillFrom_toList_cons (h : WellFormed ⟨hole :: holes, last, unclosed⟩) :
    fillFrom values none (toList ⟨hole :: holes, last, unclosed⟩) =
      (rendering? values hole.2).bind fun shown =>
        (fillFrom values none (toList ⟨holes, last, unclosed⟩)).map (hole.1 ++ shown ++ ·) := by
  obtain ⟨htext, hname, -⟩ := wellFormed_cons.1 h
  rw [toList_cons, fillFrom_text htext, fillFrom, if_pos rfl, fillFrom_name hname,
    List.reverse_nil, List.nil_append]
  cases rendering? values hole.2 with
  | none => rfl
  | some shown =>
    simp only [Option.bind_some, Option.map_map, Function.comp_def, List.append_assoc]

theorem fillable_cons : Fillable ⟨hole :: holes, last, unclosed⟩ values ↔
    (∃ v, values.get? (String.ofList hole.2) = some v ∧ Text.isBlank v.display = false) ∧
      Fillable ⟨holes, last, unclosed⟩ values := by
  constructor
  · intro h
    exact ⟨h.named hole (by simp), h.closed, fun x hx => h.named x (by simp [hx])⟩
  · rintro ⟨hhole, h⟩
    refine ⟨h.closed, fun x hx => ?_⟩
    rcases List.mem_cons.1 hx with rfl | hx
    · exact hhole
    · exact h.named x hx

theorem filled_cons : filled ⟨hole :: holes, last, unclosed⟩ values =
    fillHole values hole ++ filled ⟨holes, last, unclosed⟩ values := by
  rw [filled, List.flatMap_cons, List.append_assoc, filled]

/-- Parts are filled exactly if they can be, and then with their values in place of the
placeholders. -/
theorem fillFrom_toList_eq_some_iff (h : p.WellFormed) :
    fillFrom values none p.toList = some out ↔ p.Fillable values ∧ out = p.filled values := by
  obtain ⟨holes, last, unclosed⟩ := p
  induction holes generalizing out with
  | nil =>
    rw [fillFrom_toList_nil h]
    cases unclosed with
    | none =>
      have hfillable : Fillable ⟨[], last, none⟩ values := ⟨rfl, by simp⟩
      simp [hfillable, filled, eq_comm]
    | some rest =>
      have hnot : ¬ Fillable ⟨[], last, some rest⟩ values := fun hfillable =>
        Option.some_ne_none rest hfillable.closed
      simp [hnot]
  | cons hole holes ih =>
    rw [fillFrom_toList_cons h, fillable_cons, filled_cons]
    obtain ⟨-, -, h⟩ := wellFormed_cons.1 h
    constructor
    · intro hout
      obtain ⟨shown, hshown, hout⟩ := Option.bind_eq_some_iff.1 hout
      obtain ⟨v, hvalue, hblank, rfl⟩ := rendering?_eq_some_iff.1 hshown
      obtain ⟨rest, hrest, rfl⟩ := Option.map_eq_some_iff.1 hout
      obtain ⟨hfillable, rfl⟩ := (ih h).1 hrest
      refine ⟨⟨⟨v, hvalue, hblank⟩, hfillable⟩, ?_⟩
      rw [fillHole, hvalue, Option.map_some, Option.getD_some]
    · rintro ⟨⟨⟨v, hvalue, hblank⟩, hfillable⟩, rfl⟩
      have hshown := rendering?_eq_some_iff.2 ⟨v, hvalue, hblank, rfl⟩
      rw [hshown, Option.bind_some, (ih h).2 ⟨hfillable, rfl⟩, Option.map_some, fillHole, hvalue,
        Option.map_some, Option.getD_some]

end Parts

/-! ## Filling in rounds -/

/-- Fill a template in rounds, of which each one copies the text up to the next opening brace and
puts in the value of the name up to the closing brace after it. There is no answer if the rounds
are used up before the filling comes to its end. -/
def rounds (values : Dict Value) : Nat → List Char → List Char → Option (Option (List Char))
  | 0, _, _ => none
  | n + 1, out, rest =>
    match cut '\x7b' rest with
    | (_, none) => some (some (out ++ rest))
    | (text, some tail) =>
      match cut '\x7d' tail with
      | (_, none) => some none
      | (name, some after) =>
        match rendering? values name with
        | none => some none
        | some shown => rounds values n (out ++ text ++ shown) after

/-- Filling in rounds comes to its end in the round after the last placeholder. In every round what
was put out so far and what is still read make up the same result. -/
theorem rounds_toList (h : p.WellFormed) {n : Nat} (hn : p.holes.length < n) (out : List Char) :
    rounds values n out p.toList = some ((fillFrom values none p.toList).map (out ++ ·)) := by
  obtain ⟨holes, last, unclosed⟩ := p
  induction holes generalizing n out with
  | nil =>
    obtain ⟨n, rfl⟩ := Nat.exists_eq_succ_of_ne_zero (Nat.ne_zero_of_lt hn)
    rw [rounds, Parts.cut_toList_nil h, Parts.fillFrom_toList_nil h]
    cases unclosed with
    | none => simp [Parts.toList_nil]
    | some rest => simp [cut_of_notMem (h.unclosed rest rfl)]
  | cons hole holes ih =>
    obtain ⟨n, rfl⟩ := Nat.exists_eq_succ_of_ne_zero (Nat.ne_zero_of_lt hn)
    rw [rounds, Parts.cut_toList_cons h, Parts.fillFrom_toList_cons h]
    obtain ⟨-, hname, h⟩ := Parts.wellFormed_cons.1 h
    simp only [cut_append hname]
    cases rendering? values hole.2 with
    | none => rfl
    | some shown =>
      refine (ih (out ++ hole.1 ++ shown) h (Nat.lt_of_succ_lt_succ hn)).trans ?_
      simp only [Option.bind_some, Option.map_map, Function.comp_def, List.append_assoc]

/-- A filled template is blank exactly if the template is: no placeholder is, and no value that is
put in. -/
theorem isBlank_of_fill {template text : String} (h : fill template values = some text) :
    Text.isBlank text = Text.isBlank template := by
  obtain ⟨⟨holes, last, unclosed⟩, hp, htemplate⟩ := exists_parts template.toList
  rw [fill, ← htemplate] at h
  obtain ⟨filled, hfilled, rfl⟩ := Option.map_eq_some_iff.1 h
  obtain ⟨hfillable, rfl⟩ := (Parts.fillFrom_toList_eq_some_iff hp).1 hfilled
  obtain rfl : unclosed = none := hfillable.closed
  rw [Text.isBlank, Text.isBlank, ← htemplate, String.toList_ofList]
  cases holes with
  | nil => simp [Parts.toList_nil, Parts.filled]
  | cons hole holes =>
    obtain ⟨v, hvalue, hblank⟩ := hfillable.named hole (by simp)
    have hbrace : Text.isBlankChar '\x7b' = false := by decide
    have hshown : v.display.toList.all Text.isBlankChar = false := hblank
    rw [Parts.filled_cons, Parts.toList_cons, Parts.fillHole, hvalue]
    simp [hshown, hbrace]

/-- A template is filled alike by values that are put in alike. -/
theorem fillFrom_congr {other : Dict Value}
    (h : ∀ name, rendering? values name = rendering? other name) (gathered : Option (List Char))
    (cs : List Char) : fillFrom values gathered cs = fillFrom other gathered cs := by
  induction cs generalizing gathered with
  | nil => cases gathered <;> rfl
  | cons c cs ih =>
    cases gathered with
    | none => rw [fillFrom, fillFrom, ih, ih]
    | some name => rw [fillFrom, fillFrom, ih, ih, h]

end Fill

/-- Take any template of an action and any values. There is one way to take the template apart into
texts without an opening brace, placeholders without a closing brace in their names, and perhaps a
brace at the end that is opened and not closed. There is a summary exactly if every brace is closed
and every placeholder has a value that is not blank, and it is made of the texts as they stand and
of the values in place of the placeholders. The rounds of filling come to their end with it, one
for every placeholder and a last one. -/
theorem summarize_exact {schema : ActionSchema} {template : String}
    (htemplate : schema.summary = some template) (values : Dict Value) :
    ∃ p : Parts, p.WellFormed ∧ p.toList = template.toList ∧
      (∀ q : Parts, q.WellFormed → q.toList = template.toList → q = p) ∧
      (∀ text, schema.summarize values = some text ↔
        p.unclosed = none ∧
        (∀ hole ∈ p.holes, ∃ v, values.get? (String.ofList hole.2) = some v ∧
          Text.isBlank v.display = false) ∧
        text = String.ofList (p.filled values)) ∧
      ∀ n, p.holes.length < n →
        rounds values n [] template.toList =
          some ((schema.summarize values).map String.toList) := by
  obtain ⟨p, ⟨hp, hparts⟩, hunique⟩ := existsUnique_parts template.toList
  have hsummary : schema.summarize values =
      (fillFrom values none p.toList).map String.ofList := by
    rw [ActionSchema.summarize, htemplate, Option.bind_some, fill, hparts]
  refine ⟨p, hp, hparts, fun q hq hqparts => hunique q ⟨hq, hqparts⟩, fun text => ?_,
    fun n hn => ?_⟩
  · rw [hsummary, Option.map_eq_some_iff]
    constructor
    · rintro ⟨filled, hfilled, rfl⟩
      obtain ⟨hfillable, rfl⟩ := (Parts.fillFrom_toList_eq_some_iff hp).1 hfilled
      exact ⟨hfillable.closed, hfillable.named, rfl⟩
    · rintro ⟨hclosed, hnamed, rfl⟩
      exact ⟨_, (Parts.fillFrom_toList_eq_some_iff hp).2 ⟨⟨hclosed, hnamed⟩, rfl⟩, rfl⟩
  · rw [← hparts, rounds_toList hp hn, hsummary, Option.map_map]
    congr 1
    refine Option.map_congr fun filled _ => ?_
    simp

/-- A template with a closing brace of its own between two placeholders. -/
def tangled : ActionSchema where
  type := "tangle"
  name := "Tangle"
  summary := some "x\x7ba\x7d\x7d\x7bb\x7dy"

/-- The value of the first placeholder looks like the second one, and is not read again. -/
theorem summarize_exact_of_tangled :
    tangled.summary = some "x\x7ba\x7d\x7d\x7bb\x7dy" ∧
    tangled.summarize (.ofList [("a", .string "\x7bb\x7d"), ("b", .int 7)]) =
      some "x\x7bb\x7d\x7d7y" ∧
    rounds (.ofList [("a", .string "\x7bb\x7d"), ("b", .int 7)]) 3 []
      "x\x7ba\x7d\x7d\x7bb\x7dy".toList = some (some "x\x7bb\x7d\x7d7y".toList) := by
  obtain ⟨p, -, -, hunique, hsummary, hrounds⟩ := summarize_exact
    (rfl : tangled.summary = some _) (.ofList [("a", .string "\x7bb\x7d"), ("b", .int 7)])
  have hwellFormed : Parts.WellFormed ⟨[(['x'], ['a']), (['\x7d'], ['b'])], ['y'], none⟩ :=
    ⟨by decide, by decide, by decide, by simp⟩
  obtain rfl := hunique _ hwellFormed (by decide)
  have hfilled := (hsummary "x\x7bb\x7d\x7d7y").2 ⟨rfl, by decide, by decide⟩
  refine ⟨rfl, hfilled, ?_⟩
  rw [hrounds 3 (by decide), hfilled]
  rfl

end Reflex.Template
