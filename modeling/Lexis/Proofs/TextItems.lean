import Lexis.Proofs.Run
import Lexis.Proofs.TemplateText
import Mathlib.Data.List.Basic
import Mathlib.Tactic.WLOG

/-!
# The items of text literals

The content of a literal is a row of items (`Items`): a cluster that stands for itself, or a
backslash with the clusters of an escape. The reader passes items one by one (`content_items`), so it
accepts exactly items before what ends them (`content_ok_iff`). Clusters have only one such row in
front (`Items.more`, `Parts.unique`): an item does not run into the next one.
-/

namespace Lexis

namespace TextForm

/-- The mark on both sides of a literal. -/
def delimiter : TextForm → Char
  | rune => '\''
  | string => '"'
  | template => '`'

/-- What a literal passes behind its content; the mark behind template text is a token of its own. -/
def closing : TextForm → List Cluster
  | template => []
  | form => [.ofChar form.delimiter]

/-- The kind of the token that holds the text of a literal. -/
def kind : TextForm → TokenKind
  | rune => .rune
  | string => .string
  | template => .templateFragment

end TextForm

namespace TextLiteral

open TextForm

/-! ## Items -/

/-- One item of the content of a literal. -/
inductive Item where
  /-- A cluster that stands for itself. -/
  | raw (g : Cluster)
  /-- A backslash, and the clusters of an escape. -/
  | escape (code : List Cluster)
  deriving DecidableEq, Repr

def Item.clusters : Item → List Cluster
  | raw g => [g]
  | escape code => .ofChar '\\' :: code

def clustersOf (items : List Item) : List Cluster := items.flatMap Item.clusters

/--
In front of the clusters `after` an item stands for scalar values.

No cluster stands for itself that starts an escape or ends the content. A line break does so in
templates only.
-/
inductive Stands (form : TextForm) (after : List Cluster) : Item → List Char → Prop
  | raw {g : Cluster} (plain : g ≠ .ofChar '\\') (inside : g ≠ .ofChar form.delimiter)
      (closed : form = template → g = .ofChar '$' → Cluster.nextIs after '{' = false)
      (line : g.isLineBreak = true → form = template) : Stands form after (.raw g) g.chars
  | escape {code : List Cluster} {c : Char} (stands : Escape form code c) :
      Stands form after (.escape code) [c]

/-- Items in a row, in front of the clusters `after`, stand for scalar values. -/
inductive Items (form : TextForm) (after : List Cluster) : List Item → List Char → Prop
  | nil : Items form after [] []
  | cons {item : Item} {items : List Item} {chars cs : List Char}
      (stands : Stands form (clustersOf items ++ after) item chars)
      (rest : Items form after items cs) : Items form after (item :: items) (chars ++ cs)

/-- Clusters that begin with what ends the content of a literal. -/
inductive Ends : TextForm → List Cluster → Prop
  | delimiter (form : TextForm) (tail : List Cluster) : Ends form (.ofChar form.delimiter :: tail)
  | interpolation (tail : List Cluster) : Ends template (.ofChar '$' :: .ofChar '{' :: tail)

/-- The clusters `gs` are the content of a literal, item by item, up to `rest`, where it ends. -/
structure Parts (form : TextForm) (gs : List Cluster) (items : List Item) (cs : List Char)
    (rest : List Cluster) : Prop where
  split : gs = clustersOf items ++ rest
  items : Items form rest items cs
  ends : Ends form rest

section

variable {form : TextForm} {after after' rest rest' gs : List Cluster} {item item' : Item}
  {items items' : List Item} {chars chars' cs cs' : List Char} {fault : Fault}

@[simp] theorem clustersOf_nil : clustersOf [] = [] := rfl

@[simp] theorem clustersOf_cons (item : Item) (items : List Item) :
    clustersOf (item :: items) = item.clusters ++ clustersOf items := rfl

@[simp] theorem clustersOf_append (items items' : List Item) :
    clustersOf (items ++ items') = clustersOf items ++ clustersOf items' := List.flatMap_append

theorem Item.clusters_ne_nil (item : Item) : item.clusters ≠ [] := by
  cases item <;> simp [clusters]

/-! ## What ends content -/

theorem closes_eq_true_iff {g : Cluster} :
    closes form g after = true ↔ g = .ofChar form.delimiter ∨
      form = template ∧ g = .ofChar '$' ∧ Cluster.nextIs after '{' = true := by
  have his : ∀ c, g.is c = true ↔ g = .ofChar c := fun c =>
    ⟨Cluster.eq_ofChar_of_is, fun h => by simp [h]⟩
  cases form <;> simp [closes, TextForm.delimiter, his]

theorem ends_cons_iff {g : Cluster} : Ends form (g :: after) ↔ closes form g after = true := by
  rw [closes_eq_true_iff]
  constructor
  · intro h
    cases h with
    | delimiter => exact .inl rfl
    | interpolation tail => exact .inr ⟨rfl, rfl, rfl⟩
  · rintro (rfl | ⟨rfl, rfl, hnext⟩)
    · exact .delimiter form after
    · obtain ⟨tail, rfl⟩ := Cluster.eq_cons_of_nextIs hnext
      exact .interpolation tail

theorem Ends.content (h : Ends form rest) : content form rest = .ok ([], rest) := by
  cases rest with
  | nil => cases h
  | cons g rest => rw [TextLiteral.content, if_pos (ends_cons_iff.mp h)]

theorem Ends.split (h : Ends form rest) :
    rest = form.closing ++ rest.drop form.closing.length := by
  cases h with
  | delimiter form tail => cases form <;> rfl
  | interpolation => rfl

theorem stands_raw_iff {g : Cluster} :
    Stands form after (.raw g) g.chars ↔
      g ≠ .ofChar '\\' ∧ closes form g after = false ∧ (g.isLineBreak = true → form = template) := by
  rw [← Bool.not_eq_true, closes_eq_true_iff, not_or, not_and, not_and, Bool.not_eq_true]
  constructor
  · rintro ⟨plain, inside, closed, line⟩
    exact ⟨plain, ⟨inside, closed⟩, line⟩
  · rintro ⟨plain, ⟨inside, closed⟩, line⟩
    exact .raw plain inside closed line

/-- No item stands where the content ends. -/
theorem Stands.not_ends (h : Stands form after item chars) : ¬Ends form (item.clusters ++ after) := by
  intro hends
  cases h with
  | @raw g plain inside closed line =>
    have hopen := (stands_raw_iff.mp (.raw plain inside closed line)).2.1
    exact Bool.false_ne_true (hopen.symm.trans (ends_cons_iff.mp hends))
  | escape =>
    have hclose := closes_eq_true_iff.mp (ends_cons_iff.mp hends)
    cases form <;> simp [TextForm.delimiter, Cluster.ofChar] at hclose

/-! ## The reader passes items -/

/-- A backslash is read with its escape. -/
theorem content_backslash :
    content form (.ofChar '\\' :: gs)
      = (TextLiteral.escape form (.ofChar '\\') gs).bind fun code =>
          (content form code.2).map fun found => (code.1 :: found.1, found.2) := by
  have hopen : ¬closes form (.ofChar '\\') gs = true := by cases form <;> simp [closes]
  have hline : ¬((Cluster.ofChar '\\').isLineBreak && decide (form ≠ template)) = true := by
    simp [Cluster.isLineBreak, Cluster.ofChar]
  rw [content, if_neg hopen, if_neg hline, if_pos (by simp)]
  split
  · next he => rw [he, Except.bind]
  · next c rest he =>
    rw [he, Except.bind]
    cases content form rest <;> rfl

/-- **The reader passes an item, and puts what it stands for in front.** -/
theorem content_item (h : Stands form after item chars) :
    content form (item.clusters ++ after)
      = (content form after).map fun found => (chars ++ found.1, found.2) := by
  cases h with
  | @raw g plain inside closed line =>
    obtain ⟨-, hopen, -⟩ := stands_raw_iff.mp (.raw plain inside closed line)
    have hline : ¬(g.isLineBreak && decide (form ≠ template)) = true := by simpa using line
    have hplain : ¬g.is '\\' = true := fun hg => plain (Cluster.eq_ofChar_of_is hg)
    rw [Item.clusters, List.singleton_append, content, if_neg (by simp [hopen]), if_neg hline,
      if_neg hplain]
    cases content form after <;> rfl
  | @escape code c stands =>
    rw [Item.clusters, List.cons_append, content_backslash, escape_of_escape stands]
    rfl

/-- The reader passes items in a row. -/
theorem content_items (h : Items form after items cs) :
    content form (clustersOf items ++ after)
      = (content form after).map fun found => (cs ++ found.1, found.2) := by
  induction h with
  | nil =>
    rw [clustersOf_nil, List.nil_append]
    cases content form after <;> rfl
  | @cons item items chars cs stands _ ih =>
    rw [clustersOf_cons, List.append_assoc, content_item stands, ih]
    cases content form after with
    | error fault => rfl
    | ok found => simp [Except.map]

/-- What the relation on clusters calls content is items in a row. -/
theorem Content.exists_items {body : List Cluster} (h : Content form after body cs) :
    ∃ items, body = clustersOf items ∧ Items form after items cs := by
  induction h with
  | nil => exact ⟨[], rfl, .nil⟩
  | @raw g body cs plain inside line _ ih =>
    obtain ⟨items, rfl, hitems⟩ := ih
    have hplain : g ≠ .ofChar '\\' := fun hg => by simp [hg] at plain
    exact ⟨.raw g :: items, rfl, .cons (stands_raw_iff.mpr ⟨hplain, inside, line⟩) hitems⟩
  | @escape code body c cs stands _ ih =>
    obtain ⟨items, rfl, hitems⟩ := ih
    exact ⟨.escape code :: items, rfl, .cons (.escape stands) hitems⟩

/-- Where content stands for nothing, the text ends at once. -/
theorem endsText_of_content_nil (h : content .template gs = .ok ([], rest))
    (hgs : ∀ g ∈ gs, g.chars ≠ []) : EndsText gs := by
  obtain rfl := eq_of_content_nil h hgs
  obtain ⟨_, _, _, hend⟩ := content_decodes h
  exact hend

/-- **Content is accepted exactly if it is items in front of what ends it.** -/
theorem content_ok_iff :
    content form gs = .ok (cs, rest) ↔ ∃ items, Parts form gs items cs rest := by
  constructor
  · intro h
    obtain ⟨body, rfl, hbody, g, tail, rfl, hclose⟩ := content_decodes h
    obtain ⟨items, rfl, hitems⟩ := hbody.exists_items
    exact ⟨items, rfl, hitems, ends_cons_iff.mpr hclose⟩
  · rintro ⟨items, rfl, hitems, hends⟩
    rw [content_items hitems, hends.content]
    simp [Except.map]

/-! ## There is only one way to cut content into items -/

theorem Stands.unique (h : Stands form after item chars) (h' : Stands form after' item' chars')
    (heq : item.clusters ++ after = item'.clusters ++ after') :
    item = item' ∧ chars = chars' ∧ after = after' := by
  cases h with
  | raw plain =>
    cases h' with
    | raw =>
      obtain ⟨rfl, rfl⟩ := List.cons.inj heq
      exact ⟨rfl, rfl, rfl⟩
    | escape => exact absurd (List.cons.inj heq).1 plain
  | @escape code c stands =>
    cases h' with
    | raw plain => exact absurd (List.cons.inj heq).1.symm plain
    | @escape code' c' stands' =>
      -- both escapes are what the reader finds there
      have hcode : code ++ after = code' ++ after' := (List.cons.inj heq).2
      have hread := escape_of_escape stands (.ofChar '\\') after
      rw [hcode, escape_of_escape stands'] at hread
      obtain ⟨rfl, rfl⟩ := Prod.mk.inj (Except.ok.inj hread)
      exact ⟨by rw [List.append_cancel_right hcode], rfl, rfl⟩

/-- **Of two rows of items in front of the same clusters, the longer one goes on as items.** -/
theorem Items.more (h : Items form after items cs) (h' : Items form after' items' cs')
    (heq : clustersOf items ++ after = clustersOf items' ++ after')
    (hlen : items.length ≤ items'.length) :
    ∃ more ds, items' = items ++ more ∧ cs' = cs ++ ds ∧ after = clustersOf more ++ after' ∧
      Items form after' more ds := by
  induction h generalizing items' cs' with
  | nil => exact ⟨items', cs', rfl, rfl, heq, h'⟩
  | @cons item items chars cs stands _ ih =>
    cases h' with
    | nil => simp at hlen
    | @cons item' items' chars' cs' stands' rest' =>
      rw [clustersOf_cons, clustersOf_cons, List.append_assoc, List.append_assoc] at heq
      obtain ⟨rfl, rfl, hrest⟩ := stands.unique stands' heq
      obtain ⟨more, ds, rfl, rfl, hafter, hmore⟩ := ih rest' hrest (by simpa using hlen)
      exact ⟨more, ds, rfl, by simp, hafter, hmore⟩

theorem Parts.unique (h : Parts form gs items cs rest) (h' : Parts form gs items' cs' rest') :
    items = items' ∧ cs = cs' ∧ rest = rest' := by
  wlog hlen : items.length ≤ items'.length generalizing items items' cs cs' rest rest'
  · obtain ⟨rfl, rfl, rfl⟩ := this h' h (Nat.le_of_not_le hlen)
    exact ⟨rfl, rfl, rfl⟩
  have hsplit := h.split.symm.trans h'.split
  obtain ⟨more, ds, rfl, rfl, hrest, hmore⟩ := h.items.more h'.items hsplit hlen
  cases hmore with
  | nil => simpa using hrest
  | cons stands =>
    -- the longer row would go on with an item where the content ends
    rw [clustersOf_cons, List.append_assoc] at hrest
    exact absurd (hrest ▸ h.ends) stands.not_ends

end

end TextLiteral

/-! ## The scanner -/

namespace Scanner

open TextLiteral

/--
A call reads a literal, or the text of a template up to its next mark: what opens it is ahead, and
then the clusters `gs`.
-/
inductive Reads (s : Scanner) : TextForm → (opening gs : List Cluster) → Prop
  | quoted {form : TextForm} {gs : List Cluster} (code : s.frames.place ≠ .templateText)
      (plain : form ≠ .template) (ahead : s.cursor.ahead = .ofChar form.delimiter :: gs) :
      Reads s form [.ofChar form.delimiter] gs
  | fragment (text : s.frames.place = .templateText) : Reads s .template [] s.cursor.ahead

section

variable {s s' : Scanner} {t : Token} {form : TextForm} {opening gs : List Cluster}

theorem Reads.ahead (h : s.Reads form opening gs) : s.cursor.ahead = opening ++ gs := by
  cases h with
  | quoted _ _ ahead => exact ahead
  | fragment => rfl

theorem Reads.blanksIn (h : s.Reads form opening gs) : s.blanksIn s.cursor.ahead = [] := by
  cases h with
  | quoted _ _ ahead => exact blanksIn_of_head ahead (by cases form <;> decide)
  | fragment text => exact blanksIn_templateText text _

/-- What is ahead of a call that reads a literal: what it passes, and what it leaves. -/
theorem Reads.split {items : List Item} {cs : List Char} {rest : List Cluster}
    (h : s.Reads form opening gs) (hparts : Parts form gs items cs rest) :
    s.cursor.ahead
      = (opening ++ (clustersOf items ++ form.closing)) ++ rest.drop form.closing.length := by
  rw [h.ahead, hparts.split, List.append_assoc, List.append_assoc, ← hparts.ends.split]

/-- Behind its opening, a rune or string is read as content, and its delimiter is passed. -/
theorem read_quoted {place : Place} (hplace : place ≠ .templateText) (hform : form ≠ .template) :
    Lexeme.read place (.ofChar form.delimiter :: gs)
      = (content form gs).map fun found => ⟨form.kind, String.ofList found.1, found.2.drop 1⟩ := by
  have hcode : Lexeme.read place (.ofChar form.delimiter :: gs)
      = Lexeme.quoted form.kind form gs := by
    rw [Lexeme.read_eq_readCode hplace]
    cases form with
    | template => exact absurd rfl hform
    | _ => rfl
  rw [hcode, Lexeme.quoted, TextLiteral.quoted]
  cases content form gs <;> rfl

/-- Template text is read as content; where it is empty, the mark that ends it is read. -/
theorem read_fragment :
    Lexeme.read .templateText gs = (content .template gs).bind fun found =>
      if found.1 = [] then Lexeme.readCode .templateText gs
      else .ok ⟨.templateFragment, String.ofList found.1, found.2⟩ := by
  rw [Lexeme.read, TextLiteral.fragment]
  cases content .template gs with
  | error fault => rfl
  | ok found => simp [Except.bind]

/-- **The token of a literal's text is what its content stands for.** -/
theorem Reads.read_ok_iff (h : s.Reads form opening gs) {x : Lexeme} :
    Lexeme.read s.frames.place s.cursor.ahead = .ok x ∧
        (form = .template → x.kind = .templateFragment) ↔
      ∃ cs rest, content form gs = .ok (cs, rest) ∧ (form = .template → cs ≠ []) ∧
        x = ⟨form.kind, String.ofList cs, rest.drop form.closing.length⟩ := by
  cases h with
  | quoted code plain ahead =>
    have hone : form.closing.length = 1 := by
      cases form with
      | template => exact absurd rfl plain
      | _ => rfl
    rw [ahead, read_quoted code plain, hone]
    constructor
    · rintro ⟨hread, -⟩
      cases hc : content form gs with
      | error fault => simp [hc, Except.map] at hread
      | ok found =>
        rw [hc] at hread
        obtain rfl := Except.ok.inj hread
        exact ⟨found.1, found.2, rfl, fun h => absurd h plain, rfl⟩
    · rintro ⟨cs, rest, hc, -, rfl⟩
      rw [hc]
      exact ⟨rfl, fun h => absurd h plain⟩
  | fragment text =>
    rw [text, read_fragment]
    constructor
    · rintro ⟨hread, hkind⟩
      have hfragment := hkind rfl
      cases hc : content .template s.cursor.ahead with
      | error fault => simp [hc, Except.bind] at hread
      | ok found =>
        obtain ⟨cs, rest⟩ := found
        rw [hc, Except.bind] at hread
        by_cases hempty : cs = []
        · -- the mark that ends the text is no fragment
          subst hempty
          have hends := endsText_of_content_nil hc fun g => Cursor.ne_nil_of_mem_ahead
          obtain ⟨kind, _, _, -, hmark, hor, -⟩ := Lexeme.readCode_of_endsText hends .templateText
          rw [if_pos rfl, hmark] at hread
          obtain rfl := Except.ok.inj hread
          rcases hor with rfl | rfl <;> cases hfragment
        · rw [if_neg hempty] at hread
          obtain rfl := Except.ok.inj hread
          exact ⟨cs, rest, rfl, fun _ => hempty, rfl⟩
    · rintro ⟨cs, rest, hc, hne, rfl⟩
      rw [hc, Except.bind, if_neg (hne rfl)]
      exact ⟨rfl, fun _ => rfl⟩

/--
**A literal is accepted exactly if it is items up to what ends it; its text is what they stand for.**

The items are unique, and the scan then stands behind the closing delimiter, or before the mark that
ends template text. Template text that stands for nothing gives no token.
-/
theorem next_text_ok_iff (h : s.Reads form opening gs) :
    (∀ cs rest, content form gs = .ok (cs, rest) ↔ ∃ items, Parts form gs items cs rest) ∧
      (∀ items items' cs cs' rest rest', Parts form gs items cs rest →
        Parts form gs items' cs' rest' → items = items' ∧ cs = cs' ∧ rest = rest') ∧
      ∀ t s', s.next = (.ok t, s') ∧ (form = .template → t.kind = .templateFragment) ↔
        ∃ items cs rest, Parts form gs items cs rest ∧ (form = .template → cs ≠ []) ∧
          t = ⟨form.kind, s.position, String.ofList cs⟩ ∧
          s' = s.past [] (opening ++ (clustersOf items ++ form.closing)) form.kind := by
  refine ⟨fun cs rest => content_ok_iff, fun _ _ _ _ _ _ => Parts.unique, fun t s' => ?_⟩
  rw [next_eq_ok_iff h.blanksIn]
  constructor
  · rintro ⟨⟨lexeme, left, hahead, hread, hposition, hafter⟩, hkind⟩
    obtain ⟨cs, rest, hc, hne, hx⟩ := h.read_ok_iff.mp ⟨hread, hkind⟩
    obtain ⟨items, hparts⟩ := content_ok_iff.mp hc
    obtain ⟨hform, htext, rfl⟩ := Lexeme.mk.inj hx
    obtain rfl := List.append_cancel_right (hahead.symm.trans (h.split hparts))
    refine ⟨items, cs, rest, hparts, hne, ?_, hform ▸ hafter⟩
    rw [← hform, ← hposition, ← htext]
  · rintro ⟨items, cs, rest, hparts, hne, rfl, rfl⟩
    obtain ⟨hread, hkind⟩ :=
      h.read_ok_iff.mpr ⟨cs, rest, content_ok_iff.mpr ⟨items, hparts⟩, hne, rfl⟩
    exact ⟨⟨_, rest.drop form.closing.length, h.split hparts, hread, rfl, rfl⟩, hkind⟩

end

/-- The text of a string, and of a template up to an interpolation. -/
theorem next_text_ok_iff_letters :
    (∃ items, Parts .string ("a\\x41\"".toList.map .ofChar) items ['a', 'A'] [.ofChar '"']) ∧
      ∃ items, Parts .template (r"$\`${".toList.map .ofChar) items ['$', '`']
        [.ofChar '$', .ofChar '{'] :=
  ⟨((next_text_ok_iff (s := ofText "\"a\\x41\"")
      (.quoted (by decide) (by decide) (by decide +kernel))).1 _ _).mp (by decide +kernel),
    ((next_text_ok_iff (s := ⟨{}, .ofText r"$\`${", [.text], []⟩) (.fragment rfl)).1 _ _).mp
      (by decide +kernel)⟩

end Scanner

end Lexis
