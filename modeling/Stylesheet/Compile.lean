import Stylesheet.Css.Scope
import Stylesheet.ScopeId
import Stylesheet.Sheet
import Stylesheet.Source.Reader

/-!
# Compiling a source
-/

namespace Stylesheet

open Token

structure Settings where
  isScoped : Bool := true
  /-- The scope id; one that is missing or empty is derived from the source. -/
  scopeId : Option Text := none
  /-- Tokens over the built-in ones and under those of the source. -/
  overrides : Option Tables := none

structure Compiled where
  css : Text
  /-- The CSS with scoped selectors, or the CSS itself if it was not to be scoped. -/
  scopedCss : Text
  scopeId : Text
  /-- How many blocks the CSS has. -/
  blocks : Nat
  /-- How many style rules the source has. -/
  selectors : Nat
deriving DecidableEq

def Settings.idFor (s : Settings) (source : Text) : Text :=
  match s.scopeId with
  | some (c :: id) => c :: id
  | _ => ScopeId.ofText source

def Document.css (overrides : Option Tables) (d : Document) : Except Misfit Text := do
  return (← Sheet.ofDocument overrides d).render

/-- Compiles a source whose imports are already in place. -/
def compile (settings : Settings) (source : Text) : Except Misfit Compiled := do
  let document := Source.parse source
  let sheet ← Sheet.ofDocument settings.overrides document
  let css := sheet.render
  let id := settings.idFor source
  return {
    css
    scopedCss := if settings.isScoped then Css.scope id css else css
    scopeId := id
    blocks := sheet.length
    selectors := document.styles.size }

end Stylesheet
