import Ekafleet.Lib.HashMap
import Ekafleet.Lib.TextSplit

/-! Templates | source: agent/template.rs

    A template is read from left to right, from one pair of opening braces to the next. What is
    put in for an expression goes to the output and is not looked at again. -/

namespace Ekafleet.Agent

/-- The values that templates refer to. -/
structure TemplateContext where
  services : HashMap String (List String) := ∅
  secrets : HashMap String String := ∅
  metadata : HashMap String String := ∅
  env : HashMap String String := ∅

/-- Extract the argument from a function-style expression. -/
def stripFunc (expr funcName : String) : Option String :=
  (Text.stripPrefix funcName expr).bind fun rest =>
    let rest := String.ofList (rest.toList.dropWhile Text.isWhitespace)
    let rest := Text.trimMatches '\'' (Text.trimMatches '"' rest)
    if rest = "" then none else some rest

/-- The value of an expression. -/
def evaluateExpr (ctx : TemplateContext) (expr : String) : String :=
  -- looked for before `service`, which it begins with
  match stripFunc expr "services" with
  | some name => ((ctx.services.lookup name).map (",".intercalate ·)).getD ""
  | none => match stripFunc expr "service" with
    | some name => ((ctx.services.lookup name).bind (·.head?)).getD ""
    | none => match stripFunc expr "secret" with
      | some name => (ctx.secrets.lookup name).getD ""
      | none => match Text.stripPrefix "meta." expr with
        | some key => (ctx.metadata.lookup key).getD ""
        | none => match Text.stripPrefix "env." expr with
          | some key => (ctx.env.lookup key).getD ""
          | none => ((ctx.metadata.lookup expr).or (ctx.env.lookup expr)).getD ""

def openBraces : List Char := ['\x7b', '\x7b']

def closeBraces : List Char := ['\x7d', '\x7d']

/-- What an expression between braces is replaced with. -/
def valueOf (ctx : TemplateContext) (expr : List Char) : List Char :=
  (evaluateExpr ctx (Text.trim (String.ofList expr))).toList

/-- The loop over what remains of a template. -/
def renderFrom (ctx : TemplateContext) (remaining : List Char) : List Char :=
  match hopen : Text.splitAtPattern openBraces remaining with
  | none => remaining
  | some (before, afterOpen) =>
    match hclose : Text.splitAtPattern closeBraces afterOpen with
    | some (expr, rest) => before ++ valueOf ctx expr ++ renderFrom ctx rest
    -- without closing braces the opening ones stand for themselves
    | none => before ++ openBraces ++ renderFrom ctx afterOpen
termination_by remaining.length
decreasing_by
  all_goals
    have hopen := Text.length_of_splitAtPattern hopen
    have htwo : openBraces.length = 2 := rfl
    try have hclose := Text.length_of_splitAtPattern hclose
    omega

/-- Render a template string by substituting its expressions. -/
def render (ctx : TemplateContext) (template : String) : String :=
  String.ofList (renderFrom ctx template.toList)

/-- Every expression of the template is closed. -/
inductive Terminated : List Char → Prop
  | text {l : List Char} (hopen : Text.splitAtPattern openBraces l = none) : Terminated l
  | expr {l before afterOpen e rest : List Char}
      (hopen : Text.splitAtPattern openBraces l = some (before, afterOpen))
      (hclose : Text.splitAtPattern closeBraces afterOpen = some (e, rest))
      (hrest : Terminated rest) : Terminated l

variable (ctx : TemplateContext)

theorem renderFrom_text {l : List Char} (h : Text.splitAtPattern openBraces l = none) :
    renderFrom ctx l = l := by
  rw [renderFrom]
  split
  · rfl
  · next hopen => rw [h] at hopen; cases hopen

theorem renderFrom_expr {l before afterOpen e rest : List Char}
    (hopen : Text.splitAtPattern openBraces l = some (before, afterOpen))
    (hclose : Text.splitAtPattern closeBraces afterOpen = some (e, rest)) :
    renderFrom ctx l = before ++ valueOf ctx e ++ renderFrom ctx rest := by
  rw [renderFrom]
  split
  · next h => rw [hopen] at h; cases h
  · next h =>
    rw [hopen] at h
    cases h
    split
    · next h => rw [hclose] at h; cases h; rfl
    · next h => rw [hclose] at h; cases h

theorem renderFrom_unclosed {l before afterOpen : List Char}
    (hopen : Text.splitAtPattern openBraces l = some (before, afterOpen))
    (hclose : Text.splitAtPattern closeBraces afterOpen = none) :
    renderFrom ctx l = before ++ openBraces ++ renderFrom ctx afterOpen := by
  rw [renderFrom]
  split
  · next h => rw [hopen] at h; cases h
  · next h =>
    rw [hopen] at h
    cases h
    split
    · next h => rw [hclose] at h; cases h
    · rfl

theorem renderFrom_text_append {l : List Char} (hopen : Text.splitAtPattern openBraces l = none)
    (hlast : l.getLast? ≠ some '\x7b') (m : List Char) :
    renderFrom ctx (l ++ m) = l ++ renderFrom ctx m := by
  have hfind : Text.splitAtPattern openBraces (l ++ m) = _ :=
    Text.splitAtPattern_pair_append_of_none m hopen hlast
  rcases hm : Text.splitAtPattern openBraces m with _ | ⟨before, afterOpen⟩
  · rw [show Text.splitAtPattern ['\x7b', '\x7b'] m = none from hm] at hfind
    rw [renderFrom_text ctx hfind, renderFrom_text ctx hm]
  · rw [show Text.splitAtPattern ['\x7b', '\x7b'] m = _ from hm, Option.map_some] at hfind
    rcases hclose : Text.splitAtPattern closeBraces afterOpen with _ | ⟨e, rest⟩
    · rw [renderFrom_unclosed ctx hfind hclose, renderFrom_unclosed ctx hm hclose]
      simp only [List.append_assoc]
    · rw [renderFrom_expr ctx hfind hclose, renderFrom_expr ctx hm hclose]
      simp only [List.append_assoc]

/-- RUN: a template whose expressions are closed is rendered before anything behind it is. -/
theorem renderFrom_append {l : List Char} (h : Terminated l) (hlast : l.getLast? ≠ some '\x7b')
    (m : List Char) : renderFrom ctx (l ++ m) = renderFrom ctx l ++ renderFrom ctx m := by
  induction h with
  | @text l hopen =>
    rw [renderFrom_text ctx hopen, renderFrom_text_append ctx hopen hlast]
  | @expr l before afterOpen e rest hopen hclose _ ih =>
    have hopen' := Text.splitAtPattern_pair_append m hopen
    have hclose' := Text.splitAtPattern_pair_append m hclose
    have hrest : rest.getLast? ≠ some '\x7b' := by
      intro h
      refine hlast ?_
      rw [Text.splitAtPattern_eq_some hopen, Text.splitAtPattern_eq_some hclose,
        List.getLast?_append, List.getLast?_append, h]
      rfl
    rw [renderFrom_expr ctx hopen' hclose', renderFrom_expr ctx hopen hclose, ih hrest]
    simp only [List.append_assoc]

end Ekafleet.Agent
