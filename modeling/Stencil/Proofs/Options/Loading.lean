import Stencil.Options.Loading
import Stencil.Proofs.Options.Workbench
import Stencil.Proofs.Result
/-!
# Loading — the options that a program can come by

Options start fresh or come from an options file, and from then on settings change them (`Options.Reachable`).  An options
file is a row of settings for fresh options, so every way leads through `set`, and no other options are reached than
consistent ones (`Reachable.consistent`).
-/
namespace Stencil
namespace Options

/-- **The options that a program can have**: fresh ones, those of the text of an options file, and what a setting makes of
any of these. -/
inductive Reachable : Options → Prop
  | fresh : Reachable {}
  | loaded {text : String} {o : Options} : ofText text = .ok o → Reachable o
  | set {o o' : Options} {setting : Setting} : Reachable o → o.set setting = .ok o' → Reachable o'

theorem consistent_of_set {o o' : Options} {setting : Setting} (h : o.set setting = .ok o') : o'.Consistent :=
  ((set_eq_ok_iff o o' setting).1 h).2

theorem Consistent.foldlM : ∀ {settings : List Setting} {o o' : Options}, o.Consistent →
    settings.foldlM Options.set o = .ok o' → o'.Consistent
  | [], o, o', hc, h => by
    obtain rfl := pure_eq_ok h
    exact hc
  | setting :: settings, o, o', _, h => by
    rw [List.foldlM_cons] at h
    obtain ⟨next, hnext, hrest⟩ := bind_eq_ok h
    exact Consistent.foldlM (consistent_of_set hnext) hrest

theorem toOptions_of_ofText {text : String} {o : Options} (h : ofText text = .ok o) :
    ∃ file : OptionsFile, file.toOptions = .ok o := by
  unfold ofText at h
  split at h
  · cases h
  · unfold ofJson at h
    split at h
    · cases h
    · next file _ => exact ⟨file, mapError_eq_ok h⟩

/-- **No options are reached but consistent ones.** -/
theorem Reachable.consistent {o : Options} (h : o.Reachable) : o.Consistent := by
  have hfresh : ({} : Options).Consistent := by decide
  cases h with
  | fresh => exact hfresh
  | loaded h =>
    obtain ⟨file, hfile⟩ := toOptions_of_ofText h
    exact hfresh.foldlM hfile
  | set _ h => exact consistent_of_set h

end Options
end Stencil
