import OneTape.Proofs.Form
import OneTape.Proofs.Json.Writer

namespace OneTape.Snapshot

open Json Text

theorem toList_toJson (s : Snapshot) : s.toJson.toList =
    '\x7b' :: memberThen "state" (writeString s.state)
      (',' :: memberThen "tape" ((Codec.list Codec.string).write s.tape)
        (',' :: memberThen "head" (writeNatural s.head)
          (',' :: memberThen "active_rule" (writeOption writeNatural s.activeRow)
            (',' :: memberThen "running" (Phase.codec.write s.phase) ['\x7d'])))) := by
  simp [toJson, toList_writeObject, memberThen, Codec.list, Codec.string, Phase.codec]

theorem toJson_injective {a b : Snapshot} (h : a.toJson = b.toJson) : a = b := by
  have htext := congrArg String.toList h
  rw [toList_toJson, toList_toJson] at htext
  obtain ⟨hstate, htext⟩ := tells_writeString.member (breaks_comma _) (breaks_comma _)
    (List.cons.inj htext).2
  obtain ⟨htape, htext⟩ := tells_writeStrings.member (breaks_comma _) (breaks_comma _)
    (List.cons.inj htext).2
  obtain ⟨hhead, htext⟩ := tells_writeNatural.member (breaks_comma _) (breaks_comma _)
    (List.cons.inj htext).2
  obtain ⟨hrow, htext⟩ := tells_writeOption_writeNatural.member (breaks_comma _) (breaks_comma _)
    (List.cons.inj htext).2
  obtain ⟨hphase, -⟩ := (Codec.tells Phase.codec_restores).member (breaks_brace [])
    (breaks_brace []) (List.cons.inj htext).2
  obtain ⟨state, tape, head, row, phase⟩ := a
  dsimp only at hstate htape hhead hrow hphase
  subst hstate htape hhead hrow hphase
  rfl

theorem printable_toJson (s : Snapshot) : Printable s.toJson.toList := by
  refine printable_writeObject ?_
  simp only [List.forall_mem_cons, List.not_mem_nil, false_implies, implies_true, and_true]
  refine ⟨printable_writeString _, printable_writeArray ?_, printable_writeNatural _,
    printable_writeOption printable_writeNatural _, printable_writeString _⟩
  intro item hitem
  obtain ⟨cell, -, rfl⟩ := List.mem_map.1 hitem
  exact printable_writeString cell

end OneTape.Snapshot
