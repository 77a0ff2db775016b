import StyleCascade.Intern.Pool
import StyleCascade.Record

namespace StyleCascade

/-- The records that are held, once for each holder. -/
abbrev Held := List (Handle Record)

namespace Held

/-- The colours that are alive, besides those of some more records. -/
def colors (held : Held) (more : List Record) : Alive :=
  Handle.alive ((more ++ held.map Handle.value).flatMap Record.colors)

/-- The fonts that are alive, besides those of some more records. -/
def fonts (held : Held) (more : List Record) : Alive :=
  Handle.alive ((more ++ held.map Handle.value).map Record.font)

/-- The images that are alive, besides those of some more records. -/
def images (held : Held) (more : List Record) : Alive :=
  Handle.alive ((more ++ held.map Handle.value).flatMap Record.images)

/-- The number of holders of a record. -/
def count (held : Held) (record : Handle Record) : Nat :=
  held.countP (fun other => other.address == record.address)

/-- The records that are held, each of them once. -/
def distinct (held : Held) : List (Handle Record) :=
  held.foldr (fun record rest =>
    record :: rest.filter (fun other => other.address != record.address)) []

/-- The number of fields of held records that have a colour. -/
def colorUses (held : Held) (color : Handle Color) : Nat :=
  (held.distinct.flatMap (fun record => record.value.colors)).countP
    (fun other => other.address == color.address)

/-- The number of held records that have a font. -/
def fontUses (held : Held) (font : Handle Font) : Nat :=
  held.distinct.countP (fun record => record.value.font.address == font.address)

/-- The number of fields of held records that have an image. -/
def imageUses (held : Held) (image : Handle Image) : Nat :=
  (held.distinct.flatMap (fun record => record.value.images)).countP
    (fun other => other.address == image.address)

end Held

/-- The hash of a record. Few records share both the font and the colour of the text. -/
def Record.hash (record : Record) : Nat :=
  31 * record.font.address + record.color.address

/-- The tables of shared values. What a table still shares is decided by the records that are held:
colours, fonts and images live as long as a held record has them. -/
structure Tables where
  /-- By canonical name. -/
  colors : Pool String Color
  fonts : Pool FontKey Font
  /-- By address. -/
  images : Pool String Image
  records : ValuePool Record

namespace Tables

/-- Tables that share nothing yet. -/
def empty : Tables :=
  ⟨.empty, .empty, .empty, .empty Record.hash⟩

/-- The numbers of live colours, fonts, images and records. -/
def sizes (tables : Tables) (held : Held) : List Nat :=
  [tables.colors.size (held.colors []), tables.fonts.size (held.fonts []),
    tables.images.size (held.images []), tables.records.size (Handle.alive held)]

/-- Forgets what is not alive. -/
def purge (tables : Tables) (held : Held) : Tables :=
  { colors := tables.colors.purge (held.colors [])
    fonts := tables.fonts.purge (held.fonts [])
    images := tables.images.purge (held.images [])
    records := tables.records.purge (Handle.alive held) }

/-- Shares a colour while some records are being made. -/
def internColor (tables : Tables) (held : Held) (making : List Record) (color : Color) :
    Handle Color × Tables :=
  let (handle, colors) := tables.colors.intern (held.colors making) color.name color
  (handle, { tables with colors := colors })

/-- Shares the image of an address while some records are being made. -/
def internImage (tables : Tables) (held : Held) (making : List Record) (url : String)
    (image : Image) : Handle Image × Tables :=
  let (handle, images) := tables.images.intern (held.images making) url image
  (handle, { tables with images := images })

/-- Shares a font while some records are being made. -/
def internFont (tables : Tables) (held : Held) (making : List Record) (font : Font) :
    Handle Font × Tables :=
  let (handle, fonts) := tables.fonts.intern (held.fonts making) font.key font
  (handle, { tables with fonts := fonts })

/-- Shares a record. -/
def internRecord (tables : Tables) (held : Held) (record : Record) : Handle Record × Tables :=
  let (handle, records) := tables.records.intern (Handle.alive held) record
  (handle, { tables with records := records })

end Tables

end StyleCascade
