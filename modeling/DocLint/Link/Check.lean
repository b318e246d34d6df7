import DocLint.Link.Extract
import DocLint.Link.Resolve
import DocLint.Violation

/-!
Broken links of a text.

* `Link.violation?` is the defect of one link: a link that names a path and has
  no candidate there is broken.
* `Link.scan` collects the defects of all links of a text, in order.
-/

namespace DocLint.Link

/-- The defect of a link, if it is broken. The message names the path that was
looked for first, or the target if there was nothing to look for. -/
def violation? (sourceDir projectRoot : Path) (probe : Probe) (l : Link) : Option Violation :=
  if isPath l.target then
    let r := resolve sourceDir projectRoot probe l.target
    if r.isBroken then
      some (.atLine l.line .brokenLink
        (String.ofList ("broken link -> ".toList ++ (r.reported.map Path.text).getD l.target))
        (String.ofList l.markdown))
    else none
  else none

/-- The broken links of a text. -/
def scan (sourceDir projectRoot : Path) (probe : Probe) (content : String) : List Violation :=
  (extract content).filterMap (violation? sourceDir projectRoot probe)

end DocLint.Link
