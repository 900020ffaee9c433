import BucketStats.Proofs.Entries
import BucketStats.Proofs.Text.Lines
import BucketStats.Proofs.Text.Utf8
import BucketStats.Settings.Basic
/-!
# Settings line by line

A line feed divides a settings file in two, and each part says what it would say as a file of its
own.  That holds of any bytes: neither a character that breaks off before the line feed nor a
carriage return there reaches over it.  So each line adds its entry to those of the other lines, and
a line that says nothing takes nothing away from them.
-/

namespace BucketStats.Settings

open Text

/-- The byte of a line feed. -/
def feedByte : UInt8 :=
  0x0a

/-- Only an empty line can be gained or lost at a line feed, and it has no entry. -/
theorem filterMap_lines_append_feed (s t : List Char) :
    (lines (s ++ '\n' :: t)).filterMap entryOf =
      (lines s).filterMap entryOf ++ (lines t).filterMap entryOf := by
  have hempty : [([] : List Char)].filterMap entryOf = [] := rfl
  rcases lines_append_feed s t with hcut | ⟨line, more, hs, hcut⟩
  · rw [hcut, List.filterMap_append]
  · rw [hcut, hs, List.filterMap_append, List.filterMap_append, hempty, List.append_nil]

theorem ofText_append_feed (s t : List Char) :
    ofText (s ++ '\n' :: t) = (ofText s).putAll (ofText t) := by
  unfold ofText
  rw [filterMap_lines_append_feed, Entries.ofList_append]

theorem ofBytes_append_feed (first second : List UInt8) :
    ofBytes (first ++ feedByte :: second) = (ofBytes first).putAll (ofBytes second) := by
  have hfeed : Char.ofNat feedByte.toNat = '\n' := rfl
  unfold ofBytes
  rw [decodeUtf8_append_ascii (by decide), hfeed, ofText_append_feed]

theorem nodup_keys_ofBytes (bytes : List UInt8) : ((ofBytes bytes).map (·.1)).Nodup :=
  Entries.nodup_keys_ofList _

/-- The settings of a file are the entries of its pieces between line feeds, put one piece after the
other. -/
theorem ofBytes_intercalate (pieces : List (List UInt8)) :
    ofBytes ([feedByte].intercalate pieces) = Entries.ofList (pieces.flatMap ofBytes) := by
  induction pieces with
  | nil => rfl
  | cons piece pieces ih =>
    have hpiece := Entries.ofList_of_nodup (nodup_keys_ofBytes piece)
    cases pieces with
    | nil =>
      rw [List.intercalate_singleton, List.flatMap_cons, List.flatMap_nil, List.append_nil, hpiece]
    | cons next later =>
      have hentries : Entries.ofList (ofBytes piece ++ (next :: later).flatMap ofBytes) =
          (ofBytes piece).putAll (Entries.ofList ((next :: later).flatMap ofBytes)) := by
        rw [Entries.ofList_append, hpiece]
      rw [List.intercalate_cons_cons, List.append_assoc, List.singleton_append,
        ofBytes_append_feed, ih, ← hentries]
      rfl

/-- Settings are read line by line, whatever the bytes are: what follows a line feed is put into the
settings before it, where the keys keep their places and take the later values.  Each line says by
itself what it adds. -/
theorem settings_line_by_line :
    (∀ first second : List UInt8,
      let settings := ofBytes (first ++ feedByte :: second)
      settings = (ofBytes first).putAll (ofBytes second) ∧
      (ofBytes first).map (·.1) <+: settings.map (·.1) ∧
      ∀ key, settings.find? key = ((ofBytes second).find? key).or ((ofBytes first).find? key)) ∧
    ∀ pieces : List (List UInt8),
      ofBytes ([feedByte].intercalate pieces) = Entries.ofList (pieces.flatMap ofBytes) := by
  refine ⟨fun first second ↦ ?_, ofBytes_intercalate⟩
  intro settings
  have hsettings : settings = (ofBytes first).putAll (ofBytes second) :=
    ofBytes_append_feed first second
  rw [hsettings]
  exact ⟨rfl, Entries.keys_prefix_putAll _ _,
    fun key ↦ Entries.find?_putAll (nodup_keys_ofBytes second) key _⟩

/-- A character that breaks off before a line feed leaves the next line as it is. -/
example : ofBytes ("a = 1".toUTF8.data.toList ++ 0xe2 :: 0x82 :: feedByte ::
    "b = 2".toUTF8.data.toList) = [("a", "1\uFFFD"), ("b", "2")] := by
  decide +kernel

end BucketStats.Settings
