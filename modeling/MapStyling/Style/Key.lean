import MapStyling.Measure

/-!
# Style Keys

The parameters a draw rule can set, and how the text of each is read.

The two tables, `name` and `kind`, are the whole of what a key is; finding a
key by its name is a search through `all`, so a name added to one table is
found by the other.

## Main definitions

* `KeyKind`: How the text of a parameter is read.
* `StyleKey`: The parameters.
* `StyleKey.name`, `StyleKey.kind`: Their spelling and their kind.
* `StyleKey.ofName?`: The parameter with a spelling.
-/

namespace MapStyling

/-- How the text of a parameter is read. -/
inductive KeyKind
  /-- Kept as it is. -/
  | text
  /-- `true` or `false`. -/
  | flag
  /-- A flag, a height, or two heights. -/
  | extrusion
  | color
  /-- One dimension; a bare number gets the unit. -/
  | width (unit : MeasureUnit)
  /-- One or two dimensions. -/
  | size
  /-- Two numbers. -/
  | offset
  /-- A whole number from zero to 4294967295. -/
  | word
  | number
  deriving DecidableEq, Repr

/-- Every parameter of a draw rule that can be styled. -/
inductive StyleKey
  | align
  | anchor
  | angle
  | buffer
  | cap
  | centroid
  | collide
  | color
  | extrude
  | flat
  | interactive
  | join
  | miterLimit
  | offset
  | order
  | outlineCap
  | outlineColor
  | outlineJoin
  | outlineMiterLimit
  | outlineOrder
  | outlineStyle
  | outlineVisible
  | outlineWidth
  | placement
  | placementMinLengthRatio
  | placementSpacing
  | pointText
  | priority
  | repeatDistance
  | repeatGroup
  | size
  | sprite
  | spriteDefault
  | style
  | textAlign
  | textAnchor
  | textCollide
  | textFontFamily
  | textFontFill
  | textFontSize
  | textFontStrokeColor
  | textFontStrokeWidth
  | textFontStyle
  | textFontWeight
  | textInteractive
  | textMaxLines
  | textOffset
  | textOptional
  | textOrder
  | textPriority
  | textRepeatDistance
  | textRepeatGroup
  | textSource
  | textSourceLeft
  | textSourceRight
  | textTransform
  | textVisible
  | textWrap
  | texture
  | tileEdges
  | transitionHideTime
  | transitionSelectedTime
  | transitionShowTime
  | visible
  | width
  deriving DecidableEq, Repr

namespace StyleKey

/-- The parameters in the order in which they are listed. -/
def all : List StyleKey :=
  [align, anchor, angle, buffer, cap, centroid, collide, color, extrude, flat, interactive, join,
   miterLimit, offset, order, outlineCap, outlineColor, outlineJoin, outlineMiterLimit,
   outlineOrder, outlineStyle, outlineVisible, outlineWidth, placement, placementMinLengthRatio,
   placementSpacing, pointText, priority, repeatDistance, repeatGroup, size, sprite,
   spriteDefault, style, textAlign, textAnchor, textCollide, textFontFamily, textFontFill,
   textFontSize, textFontStrokeColor, textFontStrokeWidth, textFontStyle, textFontWeight,
   textInteractive, textMaxLines, textOffset, textOptional, textOrder, textPriority,
   textRepeatDistance, textRepeatGroup, textSource, textSourceLeft, textSourceRight,
   textTransform, textVisible, textWrap, texture, tileEdges, transitionHideTime,
   transitionSelectedTime, transitionShowTime, visible, width]

/-- Spelling in scene files. -/
def name : StyleKey → String
  | align => "align"
  | anchor => "anchor"
  | angle => "angle"
  | buffer => "buffer"
  | cap => "cap"
  | centroid => "centroid"
  | collide => "collide"
  | color => "color"
  | extrude => "extrude"
  | flat => "flat"
  | interactive => "interactive"
  | join => "join"
  | miterLimit => "miter_limit"
  | offset => "offset"
  | order => "order"
  | outlineCap => "outline_cap"
  | outlineColor => "outline_color"
  | outlineJoin => "outline_join"
  | outlineMiterLimit => "outline_miter_limit"
  | outlineOrder => "outline_order"
  | outlineStyle => "outline_style"
  | outlineVisible => "outline_visible"
  | outlineWidth => "outline_width"
  | placement => "placement"
  | placementMinLengthRatio => "placement_min_length_ratio"
  | placementSpacing => "placement_spacing"
  | pointText => "point_text"
  | priority => "priority"
  | repeatDistance => "repeat_distance"
  | repeatGroup => "repeat_group"
  | size => "size"
  | sprite => "sprite"
  | spriteDefault => "sprite_default"
  | style => "style"
  | textAlign => "text_align"
  | textAnchor => "text_anchor"
  | textCollide => "text_collide"
  | textFontFamily => "text_font_family"
  | textFontFill => "text_font_fill"
  | textFontSize => "text_font_size"
  | textFontStrokeColor => "text_font_stroke_color"
  | textFontStrokeWidth => "text_font_stroke_width"
  | textFontStyle => "text_font_style"
  | textFontWeight => "text_font_weight"
  | textInteractive => "text_interactive"
  | textMaxLines => "text_max_lines"
  | textOffset => "text_offset"
  | textOptional => "text_optional"
  | textOrder => "text_order"
  | textPriority => "text_priority"
  | textRepeatDistance => "text_repeat_distance"
  | textRepeatGroup => "text_repeat_group"
  | textSource => "text_source"
  | textSourceLeft => "text_source_left"
  | textSourceRight => "text_source_right"
  | textTransform => "text_transform"
  | textVisible => "text_visible"
  | textWrap => "text_wrap"
  | texture => "texture"
  | tileEdges => "tile_edges"
  | transitionHideTime => "transition_hide_time"
  | transitionSelectedTime => "transition_selected_time"
  | transitionShowTime => "transition_show_time"
  | visible => "visible"
  | width => "width"

def kind : StyleKey → KeyKind
  | align => .text
  | anchor => .text
  | angle => .number
  | buffer => .offset
  | cap => .text
  | centroid => .flag
  | collide => .flag
  | color => .color
  | extrude => .extrusion
  | flat => .flag
  | interactive => .flag
  | join => .text
  | miterLimit => .number
  | offset => .offset
  | order => .word
  | outlineCap => .text
  | outlineColor => .color
  | outlineJoin => .text
  | outlineMiterLimit => .number
  | outlineOrder => .word
  | outlineStyle => .text
  | outlineVisible => .flag
  | outlineWidth => .width .meter
  | placement => .text
  | placementMinLengthRatio => .number
  | placementSpacing => .width .pixel
  | pointText => .flag
  | priority => .word
  | repeatDistance => .width .pixel
  | repeatGroup => .text
  | size => .size
  | sprite => .text
  | spriteDefault => .text
  | style => .text
  | textAlign => .text
  | textAnchor => .text
  | textCollide => .flag
  | textFontFamily => .text
  | textFontFill => .color
  | textFontSize => .width .pixel
  | textFontStrokeColor => .color
  | textFontStrokeWidth => .number
  | textFontStyle => .text
  | textFontWeight => .text
  | textInteractive => .flag
  | textMaxLines => .word
  | textOffset => .offset
  | textOptional => .flag
  | textOrder => .word
  | textPriority => .word
  | textRepeatDistance => .width .pixel
  | textRepeatGroup => .text
  | textSource => .text
  | textSourceLeft => .text
  | textSourceRight => .text
  | textTransform => .text
  | textVisible => .flag
  | textWrap => .word
  | texture => .text
  | tileEdges => .flag
  | transitionHideTime => .width .second
  | transitionSelectedTime => .width .second
  | transitionShowTime => .width .second
  | visible => .flag
  | width => .width .meter

/-- The parameter with a spelling. -/
def ofName? (s : String) : Option StyleKey :=
  all.find? fun k => k.name == s

/-- The parameters that hold a color. -/
def isColor (k : StyleKey) : Bool :=
  k.kind = .color

/-- What is said of a name that no parameter has. -/
def unknownMessage (s : String) : String :=
  "unknown style parameter: " ++ s

end StyleKey

end MapStyling
