import Stencil.Locale
import Stencil.Options
/-!
# Resolver — the direction of a run

The first of these that speaks decides: the static direction, runtime detection, the locale, the resolver's fallback.
-/
namespace Stencil

structure Resolver where
  /-- The direction where nothing else decides. -/
  fallback : Direction := .ltr
deriving Repr, DecidableEq, Inhabited

/-- The effective direction under the given options and locale. -/
def Resolver.resolve (r : Resolver) (o : Options) (locale : Option String) : EffectiveDirection :=
  match o.staticDirection with
  | .ltr => .fixed .ltr
  | .rtl => .fixed .rtl
  | .unspecified =>
    if o.useRuntimeDirectionDetection then .deferred
    else .fixed ((locale.bind localeDirection).getD r.fallback)

end Stencil
