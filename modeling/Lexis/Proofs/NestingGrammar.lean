import Lexis.Template

/-!
# The grammar of nesting

How templates, interpolations and braces enclose each other, as a grammar of token kinds, and what
the open frames say about it: they are the phrases that have been begun and not ended. One token is
one step of this (`Within.afterToken`); whatever is open can still be closed (`Within.complete`).
-/

namespace Lexis

/-- Whether a kind has no part in the nesting. -/
def TokenKind.isPlain : TokenKind → Bool
  | .punctuation .openBrace | .punctuation .closeBrace => false
  | .templateQuote | .templateFragment | .interpolationStart => false
  | _ => true

namespace Nesting

/-- The phrases of the grammar. -/
inductive Phrase where
  | top
  | item
  | body
  | interpolation
  | template
  | text
  | fragment

/--
The grammar of nesting.

```
top           = (item | "{" | "}")*
item          = plain | interpolation | template
body          = (item | "{" body "}")*
interpolation = "${" body "}"
template      = "`" text fragment "`"
text          = (fragment interpolation)*
fragment      = a template fragment or nothing
```
-/
inductive Derives : Phrase → List TokenKind → Prop where
  | topNil : Derives .top []
  | topItem {ks is : List TokenKind} (front : Derives .top ks) (item : Derives .item is) :
      Derives .top (ks ++ is)
  | topOpenBrace {ks : List TokenKind} (front : Derives .top ks) :
      Derives .top (ks ++ [.punctuation .openBrace])
  | topCloseBrace {ks : List TokenKind} (front : Derives .top ks) :
      Derives .top (ks ++ [.punctuation .closeBrace])
  | plain {k : TokenKind} (h : k.isPlain = true) : Derives .item [k]
  | interpolationItem {ks : List TokenKind} (h : Derives .interpolation ks) : Derives .item ks
  | templateItem {ks : List TokenKind} (h : Derives .template ks) : Derives .item ks
  | bodyNil : Derives .body []
  | bodyItem {ks is : List TokenKind} (front : Derives .body ks) (item : Derives .item is) :
      Derives .body (ks ++ is)
  | bodyBraces {ks bs : List TokenKind} (front : Derives .body ks) (braced : Derives .body bs) :
      Derives .body (ks ++ .punctuation .openBrace :: (bs ++ [.punctuation .closeBrace]))
  | interpolation {bs : List TokenKind} (body : Derives .body bs) :
      Derives .interpolation (.interpolationStart :: (bs ++ [.punctuation .closeBrace]))
  | template {ts fs : List TokenKind} (text : Derives .text ts) (last : Derives .fragment fs) :
      Derives .template (.templateQuote :: (ts ++ fs ++ [.templateQuote]))
  | textNil : Derives .text []
  | textInterpolation {ts fs is : List TokenKind} (front : Derives .text ts)
      (fragment : Derives .fragment fs) (interpolation : Derives .interpolation is) :
      Derives .text (ts ++ fs ++ is)
  | noFragment : Derives .fragment []
  | oneFragment : Derives .fragment [.templateFragment]

/-- The code of an interpolation in which `n` braces are open. -/
inductive Opened : Nat → List TokenKind → Prop where
  | none {bs : List TokenKind} (body : Derives .body bs) : Opened 0 bs
  | brace {n : Nat} {ks bs : List TokenKind} (outer : Opened n ks) (body : Derives .body bs) :
      Opened (n + 1) (ks ++ .punctuation .openBrace :: bs)

/-- The kinds of tokens that have opened the frames and closed all else. -/
inductive Within : TemplateStack → List TokenKind → Prop where
  | code {ks : List TokenKind} (top : Derives .top ks) : Within [] ks
  | text {frames : TemplateStack} {outer ts fs : List TokenKind} (around : Within frames outer)
      (place : frames.place ≠ .templateText) (text : Derives .text ts)
      (last : Derives .fragment fs) :
      Within (.text :: frames) (outer ++ .templateQuote :: (ts ++ fs))
  | interpolation {frames : TemplateStack} {outer bs : List TokenKind} {n : Nat}
      (around : Within frames outer) (code : Opened n bs) :
      Within (.interpolation n :: frames) (outer ++ .interpolationStart :: bs)

/-! ## A phrase closes what it opens -/

/-- The frames after tokens of the given kinds. -/
def framesAfter (frames : TemplateStack) (ks : List TokenKind) : TemplateStack :=
  ks.foldl TemplateStack.afterToken frames

/-- Kinds act on the frames one after another. -/
theorem framesAfter_append (frames : TemplateStack) (ks ls : List TokenKind) :
    framesAfter frames (ks ++ ls) = framesAfter (framesAfter frames ks) ls := List.foldl_append

theorem framesAfter_cons (frames : TemplateStack) (k : TokenKind) (ks : List TokenKind) :
    framesAfter frames (k :: ks) = framesAfter (frames.afterToken k) ks := rfl

/-- A plain token opens and closes nothing. -/
theorem afterToken_of_isPlain {k : TokenKind} (frames : TemplateStack) (h : k.isPlain = true) :
    frames.afterToken k = frames := by
  unfold TemplateStack.afterToken
  split <;> first | rfl | exact absurd h (by decide)

/-- Outside template text a quote opens some. -/
theorem quote_of_place {frames : TemplateStack} (h : frames.place ≠ .templateText) :
    frames.quote = .text :: frames := by
  cases frames with
  | nil => rfl
  | cons frame frames =>
    cases frame with
    | text => exact absurd rfl h
    | interpolation n => rfl

/-- The kinds of a phrase leave the frames among which it may stand as they were. -/
def Keeps : Phrase → List TokenKind → Prop
  | .top, ks => framesAfter [] ks = []
  | .item, ks | .template, ks =>
    ∀ frames : TemplateStack, frames.place ≠ .templateText → framesAfter frames ks = frames
  | .interpolation, ks | .fragment, ks => ∀ frames, framesAfter frames ks = frames
  | .body, ks => ∀ n frames,
    framesAfter (.interpolation n :: frames) ks = .interpolation n :: frames
  | .text, ks => ∀ frames, framesAfter (.text :: frames) ks = .text :: frames

/-- What is derived as a whole leaves the frames as they were. -/
theorem Derives.keeps {p : Phrase} {ks : List TokenKind} (h : Derives p ks) : Keeps p ks := by
  induction h with
  | topNil => rfl
  | topItem _ _ hfront hitem =>
    show framesAfter [] _ = []
    rw [framesAfter_append, hfront, hitem [] (by decide)]
  | topOpenBrace _ hfront =>
    show framesAfter [] _ = []
    rw [framesAfter_append, hfront]
    rfl
  | topCloseBrace _ hfront =>
    show framesAfter [] _ = []
    rw [framesAfter_append, hfront]
    rfl
  | plain hk => exact fun frames _ => afterToken_of_isPlain frames hk
  | interpolationItem _ ih => exact fun frames _ => ih frames
  | templateItem _ ih => exact ih
  | bodyNil => exact fun _ _ => rfl
  | bodyItem _ _ hfront hitem =>
    intro n frames
    rw [framesAfter_append, hfront n frames, hitem _ (by simp [TemplateStack.place])]
  | bodyBraces _ _ hfront hbraced =>
    intro n frames
    -- one brace more is open inside
    rw [framesAfter_append, hfront n frames, framesAfter_cons, framesAfter_append]
    show framesAfter (framesAfter (.interpolation (n + 1) :: frames) _) _ = _
    rw [hbraced (n + 1) frames]
    rfl
  | interpolation _ hbody =>
    intro frames
    rw [framesAfter_cons, framesAfter_append]
    show framesAfter (framesAfter (.interpolation 0 :: frames) _) _ = _
    rw [hbody 0 frames]
    rfl
  | template _ _ htext hlast =>
    intro frames hp
    rw [framesAfter_cons, framesAfter_append, framesAfter_append]
    show framesAfter (framesAfter (framesAfter frames.quote _) _) _ = _
    rw [quote_of_place hp, htext frames, hlast]
    rfl
  | textNil => exact fun _ => rfl
  | textInterpolation _ _ _ hfront hfragment hinterpolation =>
    intro frames
    rw [framesAfter_append, framesAfter_append, hfront, hfragment, hinterpolation]
  | noFragment => exact fun _ => rfl
  | oneFragment => exact fun _ => rfl

/-- The kinds within frames are kinds that open these frames. -/
theorem Within.framesAfter_eq {frames : TemplateStack} {ks : List TokenKind}
    (h : Within frames ks) : framesAfter [] ks = frames := by
  induction h with
  | code top => exact top.keeps
  | text around place text last ih =>
    rw [framesAfter_append, ih, framesAfter_cons, framesAfter_append]
    show framesAfter (framesAfter (TemplateStack.quote _) _) _ = _
    rw [quote_of_place place, text.keeps, last.keeps]
  | interpolation around code ih =>
    rw [framesAfter_append, ih, framesAfter_cons]
    show framesAfter (.interpolation 0 :: _) _ = _
    clear around ih
    -- each brace that is still open counts once
    induction code with
    | none body => exact body.keeps 0 _
    | brace _ body ih =>
      rw [framesAfter_append, ih, framesAfter_cons]
      exact body.keeps _ _

/-! ## Code goes on -/

/-- What can follow a body can follow the code in the innermost open brace. -/
theorem Opened.append {n : Nat} {ks xs : List TokenKind} (h : Opened n ks)
    (hx : ∀ bs, Derives .body bs → Derives .body (bs ++ xs)) : Opened n (ks ++ xs) := by
  cases h with
  | none body => exact .none (hx _ body)
  | brace outer body =>
    rw [List.append_assoc, List.cons_append]
    exact .brace outer (hx _ body)

/-- A closing brace matches the last open one. -/
theorem Opened.close {n : Nat} {ks : List TokenKind} (h : Opened (n + 1) ks) :
    Opened n (ks ++ [.punctuation .closeBrace]) := by
  cases h with
  | brace outer body =>
    rw [List.append_assoc, List.cons_append]
    exact outer.append fun _ hfront => .bodyBraces hfront body

/-- Where no brace is left open, a body is complete. -/
theorem derives_body_of_opened {ks : List TokenKind} (h : Opened 0 ks) : Derives .body ks := by
  cases h with
  | none body => exact body

namespace Within

variable {frames : TemplateStack} {ks : List TokenKind}

/-- A whole item may stand in code. -/
theorem item {is : List TokenKind} (h : Within frames ks) (hp : frames.place ≠ .templateText)
    (hi : Derives .item is) : Within frames (ks ++ is) := by
  cases h with
  | code top => exact .code (.topItem top hi)
  | text => exact absurd rfl hp
  | interpolation around code =>
    rw [List.append_assoc, List.cons_append]
    exact .interpolation around (code.append fun _ hfront => .bodyItem hfront hi)

/-- An interpolation may stand in code and in template text. -/
theorem interpolationItem {is : List TokenKind} (h : Within frames ks)
    (hi : Derives .interpolation is) : Within frames (ks ++ is) := by
  cases h with
  | text around place text last =>
    have hts := Within.text around place (.textInterpolation text last hi) .noFragment
    rw [List.append_nil] at hts
    rwa [List.append_assoc, List.cons_append]
  | code top => exact .code (.topItem top (.interpolationItem hi))
  | interpolation around code =>
    rw [List.append_assoc, List.cons_append]
    exact .interpolation around
      (code.append fun _ hfront => .bodyItem hfront (.interpolationItem hi))

/-! ## What is open can be closed -/

/-- The kinds before the brace that ends an interpolation: its mark comes before its body. -/
theorem of_interpolation (h : Within (.interpolation 0 :: frames) ks) :
    ∃ outer body, ks = outer ++ .interpolationStart :: body ∧ Within frames outer ∧
      Derives .body body := by
  cases h with
  | interpolation around code => exact ⟨_, _, rfl, around, derives_body_of_opened code⟩

/-- A brace that matches none of its own ends the interpolation. -/
theorem endInterpolation (h : Within (.interpolation 0 :: frames) ks) :
    Within frames (ks ++ [.punctuation .closeBrace]) := by
  obtain ⟨outer, body, rfl, around, hbody⟩ := h.of_interpolation
  rw [List.append_assoc, List.cons_append]
  exact around.interpolationItem (.interpolation hbody)

/-- Any other brace matches the last one that is open. -/
theorem closeBrace {n : Nat} (h : Within (.interpolation (n + 1) :: frames) ks) :
    Within (.interpolation n :: frames) (ks ++ [.punctuation .closeBrace]) := by
  cases h with
  | interpolation around code =>
    rw [List.append_assoc, List.cons_append]
    exact .interpolation around code.close

/-- A quote in template text ends the template. -/
theorem endTemplate (h : Within (.text :: frames) ks) : Within frames (ks ++ [.templateQuote]) := by
  cases h with
  | text around place text last =>
    rw [List.append_assoc, List.cons_append]
    exact around.item place (.templateItem (.template text last))

/-- **Whatever is open, more tokens can end all of it.** -/
theorem complete (h : Within frames ks) : ∃ more, Derives .top (ks ++ more) := by
  have hstep : ∀ {ks : List TokenKind} {k : TokenKind},
      (∃ more, Derives .top (ks ++ [k] ++ more)) → ∃ more, Derives .top (ks ++ more) := by
    rintro ks k ⟨more, hmore⟩
    rw [List.append_assoc] at hmore
    exact ⟨[k] ++ more, hmore⟩
  induction frames generalizing ks with
  | nil =>
    cases h with
    | code top => exact ⟨[], by rwa [List.append_nil]⟩
  | cons frame frames ih =>
    cases frame with
    | text => exact hstep (ih h.endTemplate)
    | interpolation n =>
      -- first the braces inside, then the interpolation itself
      induction n generalizing ks with
      | zero => exact hstep (ih h.endInterpolation)
      | succ n ihn => exact hstep (ihn h.closeBrace)

/-! ## One token -/

/-- A fragment was not met yet where template text ends with none. -/
theorem of_text (h : Within (.text :: frames) ks) (hlast : ks.getLast? ≠ some .templateFragment) :
    ∃ outer ts, ks = outer ++ .templateQuote :: ts ∧ Within frames outer ∧
      frames.place ≠ .templateText ∧ Derives .text ts := by
  cases h with
  | @text _ outer ts _ around place text last =>
    cases last with
    | noFragment => exact ⟨outer, ts, by rw [List.append_nil], around, place, text⟩
    | oneFragment =>
      refine absurd ?_ hlast
      rw [← List.cons_append, ← List.append_assoc, List.getLast?_append]
      rfl

/-- A fragment may stand in template text if none stands just before it. -/
theorem fragment (h : Within (.text :: frames) ks)
    (hlast : ks.getLast? ≠ some .templateFragment) :
    Within (.text :: frames) (ks ++ [.templateFragment]) := by
  obtain ⟨outer, ts, rfl, around, place, text⟩ := h.of_text hlast
  rw [List.append_assoc, List.cons_append]
  exact .text around place text .oneFragment

theorem openBrace (h : Within frames ks) (hp : frames.place ≠ .templateText) :
    Within frames.openBrace (ks ++ [.punctuation .openBrace]) := by
  cases h with
  | code top => exact .code (.topOpenBrace top)
  | text => exact absurd rfl hp
  | interpolation around code =>
    rw [List.append_assoc, List.cons_append]
    exact .interpolation around (.brace code .bodyNil)

theorem anyCloseBrace (h : Within frames ks) (hp : frames.place ≠ .templateText) :
    Within frames.closeBrace (ks ++ [.punctuation .closeBrace]) := by
  cases frames with
  | nil =>
    cases h with
    | code top => exact .code (.topCloseBrace top)
  | cons frame frames =>
    cases frame with
    | text => exact absurd rfl hp
    | interpolation n =>
      cases n with
      | zero => exact h.endInterpolation
      | succ n => exact h.closeBrace

/-- A quote opens or ends a template, as the innermost frame has it. -/
theorem quote (h : Within frames ks) : Within frames.quote (ks ++ [.templateQuote]) := by
  by_cases hp : frames.place = .templateText
  · cases frames with
    | nil => simp [TemplateStack.place] at hp
    | cons frame frames =>
      cases frame with
      | text => exact h.endTemplate
      | interpolation n => simp [TemplateStack.place] at hp
  · rw [quote_of_place hp]
    exact .text h hp .textNil .noFragment

/--
**The frames after a token are those that are open after it.**

Template text takes a fragment only where it has none yet, and nothing else but the marks that end
it.
-/
theorem afterToken {k : TokenKind} (h : Within frames ks)
    (hfragment : k = .templateFragment →
      frames.place = .templateText ∧ ks.getLast? ≠ some .templateFragment)
    (htext : frames.place = .templateText →
      k = .templateFragment ∨ k = .templateQuote ∨ k = .interpolationStart) :
    Within (frames.afterToken k) (ks ++ [k]) := by
  by_cases hplain : k.isPlain = true
  · have hp : frames.place ≠ .templateText := by
      intro hp
      rcases htext hp with rfl | rfl | rfl <;> exact absurd hplain (by decide)
    rw [afterToken_of_isPlain frames hplain]
    exact h.item hp (.plain hplain)
  · -- every other kind stands in code
    have hcode : k ≠ .templateFragment → k ≠ .templateQuote → k ≠ .interpolationStart →
        frames.place ≠ .templateText := by
      intro h₁ h₂ h₃ hp
      rcases htext hp with hk | hk | hk
      · exact h₁ hk
      · exact h₂ hk
      · exact h₃ hk
    unfold TokenKind.isPlain at hplain
    split at hplain
    · exact h.openBrace (hcode (by decide) (by decide) (by decide))
    · exact h.anyCloseBrace (hcode (by decide) (by decide) (by decide))
    · exact h.quote
    · obtain ⟨hp, hlast⟩ := hfragment rfl
      cases frames with
      | nil => simp [TemplateStack.place] at hp
      | cons frame frames =>
        cases frame with
        | text => exact h.fragment hlast
        | interpolation n => simp [TemplateStack.place] at hp
    · exact .interpolation h (.none .bodyNil)
    · exact absurd rfl hplain

end Within

end Nesting

end Lexis
