import HumanoidNavigation.Transition.Run
import HumanoidNavigation.Transition.Ledger
import HumanoidNavigation.Transition.Outbox
import HumanoidNavigation.Transition.Mailbox
import HumanoidNavigation.Transition.PeekPop
import HumanoidNavigation.Gateway.Safety
import HumanoidNavigation.Gateway.Slew
import HumanoidNavigation.Gateway.Handoff
import HumanoidNavigation.Rotation.Basic
import HumanoidNavigation.MapMaker.Agreement
import HumanoidNavigation.PclLocalization.Authority
import HumanoidNavigation.PclLocalization.Hold
import HumanoidNavigation.PclLocalization.Nearest
import HumanoidNavigation.PclLocalization.Correction
import HumanoidNavigation.GravityOverride.Align
import HumanoidNavigation.GoalNav.Outstanding
import HumanoidNavigation.GoalNav.Tracking
import HumanoidNavigation.GoalNav.Order
import HumanoidNavigation.GoalNav.Grace
import HumanoidNavigation.GoalNav.Attribution
import HumanoidNavigation.GoalPlan.Preview
import HumanoidNavigation.Localizer.Trust
import HumanoidNavigation.Localizer.LocalMap
import HumanoidNavigation.Localizer.Smoothing
import HumanoidNavigation.Localizer.PointToPoint
import HumanoidNavigation.Localizer.Planar
import HumanoidNavigation.Localizer.Cloud
import HumanoidNavigation.LivoxViz.Bridge
import HumanoidNavigation.FastLio.Pairing
import HumanoidNavigation.FastLio.Staging
import HumanoidNavigation.FastLio.Glitch
import HumanoidNavigation.FastLio.Poison
import HumanoidNavigation.FastLio.ImuSplit
import HumanoidNavigation.FastLio.Accumulator
import HumanoidNavigation.FastLio.Gravity
import HumanoidNavigation.MapMaker.AlignedCloud
import HumanoidNavigation.GoalNav.Quaternions
import HumanoidNavigation.GoalNav.Exceptions
import HumanoidNavigation.GoalNav.Duplicates
import HumanoidNavigation.PoseBridge.Planar
import HumanoidNavigation.Search.BinaryHeap
import HumanoidNavigation.Search.KNearest
import HumanoidNavigation.Search.Sweep
import HumanoidNavigation.IkdTree.Swap
import HumanoidNavigation.IkdTree.Nearest
import HumanoidNavigation.Transition.Tally
import HumanoidNavigation.IkdTree.Map
import HumanoidNavigation.Transition.Shadow
import HumanoidNavigation.Transition.RingBuffer
import HumanoidNavigation.IkdTree.RebuildThread
import HumanoidNavigation.IkdTree.Balance
import HumanoidNavigation.FastLio.Mapping
import HumanoidNavigation.FastLio.ImuProcess
import HumanoidNavigation.FastLio.Propagation
